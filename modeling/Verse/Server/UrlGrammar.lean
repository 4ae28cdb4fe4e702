import Verse.Server.Handshake

/-!
# URLs of a Verse server

`v_url_parse` looks for the separators of a URL, but it does not look whether it found
them: without a colon behind the host the service is read behind the end of the string.

`UrlScheme` and `UrlAddress` are the grammar of the URLs.  In a host that is not in
brackets there is no colon, and it does not begin with a bracket.

## Strategy

`vUrlParse_scheme` says what the parser does behind a scheme and its separator, and
`vUrlParse_cases` that it refuses everything else.  What is then left is the address:
`addressParse_text` and `address_of_parse`.
-/

namespace Verse

open Lib

/-! ## The grammar -/

/-- The last part of the scheme `verse-udp-none`. -/
inductive UrlSecurity where
  | none
  | dtls
  | tls
  deriving DecidableEq, Repr

inductive UrlScheme where
  | verse (tcp : Bool) (security : UrlSecurity)
  | ws
  | wss
  deriving DecidableEq, Repr

def UrlSecurity.text : UrlSecurity → List UInt8
  | .none => ascii "none"
  | .dtls => ascii "dtls"
  | .tls => ascii "tls"

def UrlScheme.text : UrlScheme → List UInt8
  | .verse tcp security =>
      ascii "verse-" ++ (if tcp then ascii "tcp" else ascii "udp") ++ ascii "-" ++ security.text
  | .ws => ascii "ws"
  | .wss => ascii "wss"

/-- The transport protocol of a scheme. -/
def UrlScheme.transport : UrlScheme → UInt16
  | .verse tcp _ => if tcp then vrsTpTcp else vrsTpUdp
  | .ws | .wss => vrsTpWebsocket

/-- The security protocol of a scheme. -/
def UrlScheme.security : UrlScheme → UInt16
  | .verse _ .none | .ws => vrsSecDataNone
  | .verse _ .dtls | .verse _ .tls | .wss => vrsSecDataTls

/-- `HOST:SERVICE`; in brackets the host is an address of IPv6. -/
structure UrlAddress where
  ipv6 : Bool
  node : List UInt8
  service : List UInt8
  deriving DecidableEq, Repr

def UrlAddress.text (a : UrlAddress) : List UInt8 :=
  (if a.ipv6 then 91 :: a.node ++ [93] else a.node) ++ 58 :: a.service

/-- A closing bracket ends a host in brackets, and a colon every other one. -/
def UrlAddress.Wf (a : UrlAddress) : Prop :=
  if a.ipv6 then 93 ∉ a.node else 58 ∉ a.node ∧ a.node.head? ≠ some 91

instance (a : UrlAddress) : Decidable a.Wf :=
  inferInstanceAs (Decidable (if a.ipv6 then 93 ∉ a.node else 58 ∉ a.node ∧ a.node.head? ≠ some 91))

/-- The separator behind the scheme. -/
def urlSeparator : List UInt8 := ascii "://"

/-- The URL with this scheme and this address. -/
def urlText (scheme : UrlScheme) (address : UrlAddress) : List UInt8 :=
  scheme.text ++ urlSeparator ++ address.text

/-- `VURL` for a scheme and an address. -/
def urlParts (scheme : UrlScheme) (address : UrlAddress) : VURL where
  transportProtocol := scheme.transport
  securityProtocol := scheme.security
  ipv6 := address.ipv6
  node := some address.node
  scheme := some scheme.text
  service := some address.service

/-- **The parser is right about a string**: it accepts it if it is a URL, stores the parts of
the URL, and what stands behind the string does not matter. -/
structure UrlParsed (str : List UInt8) : Prop where
  accepts : ∀ url beyond, (vUrlParse str beyond url).1 = true ↔
    ∃ scheme address, address.Wf ∧ str = urlText scheme address
  parts : ∀ scheme address, address.Wf → str = urlText scheme address →
    ∀ url beyond, (vUrlParse str beyond url).2 = urlParts scheme address
  reads : ∀ url beyond beyond', vUrlParse str beyond url = vUrlParse str beyond' url

/-- The string is not a URL with the scheme `wss`, and behind every other scheme with its
separator there is an address. -/
structure UrlHandled (str : List UInt8) : Prop where
  notWss : ∀ address, address.Wf → str ≠ urlText .wss address
  address : ∀ (scheme : UrlScheme) (rest : List UInt8), scheme ≠ .wss →
    str = scheme.text ++ urlSeparator ++ rest → ∃ address : UrlAddress, address.Wf ∧ rest = address.text

/-! ## The scheme -/

section Scheme

variable (beyond : List UInt8) (url : VURL)

/-- What the parser does with the text behind the separator. -/
def addressParse (rest : List UInt8) : Bool × VURL :=
  if rest.head? = some 91 then
    let j := rest.findIdx (· = 93)
    let url :=
      if j < rest.length then { url with node := some ((rest.drop 1).take (j - 1)), ipv6 := true }
      else url
    (true, { url with service := some (cString ((rest ++ 0 :: beyond).drop (j + 2))) })
  else
    let j := rest.findIdx (· = 58)
    let url := if j < rest.length then { url with node := some (rest.take j), ipv6 := false } else url
    (true, { url with service := some (cString ((rest ++ 0 :: beyond).drop (j + 1))) })

/-- The second half of the parser behind the text `front`. -/
theorem urlParseAddress_separator (front rest : List UInt8) :
    urlParseAddress (front ++ urlSeparator ++ rest) beyond front.length url =
      addressParse beyond { url with scheme := some front } rest := by
  have hbehind : (front ++ urlSeparator ++ rest).drop front.length = urlSeparator ++ rest := by
    rw [List.append_assoc, List.drop_left]
  have hsep : (ascii "://").isPrefixOf (urlSeparator ++ rest) = true :=
    List.isPrefixOf_iff_prefix.mpr (List.prefix_append _ _)
  have hfront : (front ++ urlSeparator ++ rest).take front.length = front := by
    rw [List.append_assoc, List.take_left]
  have hlen : front.length + 3 = (front ++ urlSeparator).length := by
    rw [List.length_append]
    rfl
  have hrest : (front ++ urlSeparator ++ rest).drop (front.length + 3) = rest := by
    rw [hlen, List.drop_left]
  have hafter : ∀ n, (front ++ urlSeparator ++ rest ++ 0 :: beyond).drop (front.length + 3 + n) =
      (rest ++ 0 :: beyond).drop n := by
    intro n
    rw [hlen, List.append_assoc _ rest, List.drop_length_add_append]
  simp only [urlParseAddress, hbehind, hsep, if_true, hfront, hrest, hafter]
  rfl

/-- Without a separator the string is refused. -/
theorem urlParseAddress_other {front tail : List UInt8}
    (hno : ∀ rest, tail ≠ urlSeparator ++ rest) :
    urlParseAddress (front ++ tail) beyond front.length url = (false, url) := by
  have hsep : ¬ (ascii "://").isPrefixOf tail = true := by
    intro hbegin
    obtain ⟨rest, hrest⟩ := List.isPrefixOf_iff_prefix.mp hbegin
    exact hno rest hrest.symm
  unfold urlParseAddress
  rw [List.drop_left, if_neg hsep]

/-- A scheme is recognised and its settings are stored; `wss` is not. -/
theorem vUrlParse_scheme {scheme : UrlScheme} (hscheme : scheme ≠ .wss) (rest : List UInt8) :
    vUrlParse (scheme.text ++ urlSeparator ++ rest) beyond url =
      addressParse beyond
        { url with
          transportProtocol := scheme.transport
          securityProtocol := scheme.security
          scheme := some scheme.text } rest := by
  have hparse : vUrlParse (scheme.text ++ urlSeparator ++ rest) beyond url =
      urlParseAddress (scheme.text ++ urlSeparator ++ rest) beyond scheme.text.length
        { url with transportProtocol := scheme.transport, securityProtocol := scheme.security } := by
    cases scheme with
    | wss => exact absurd rfl hscheme
    | ws => rfl
    | verse tcp security => cases tcp <;> cases security <;> rfl
  rw [hparse, urlParseAddress_separator]

/-! What the parser does not refuse begins with a scheme and the separator. -/

theorem isPrefixOf_split {lit str : List UInt8} (h : lit.isPrefixOf str = true) :
    ∃ tail, str = lit ++ tail := by
  obtain ⟨tail, htail⟩ := List.isPrefixOf_iff_prefix.mp h
  exact ⟨tail, htail.symm⟩

theorem head?_split {str : List UInt8} {c : UInt8} (h : str.head? = some c) :
    ∃ tail, str = c :: tail := by
  obtain ⟨tail, htail⟩ := List.head?_eq_some_iff.mp h
  exact ⟨tail, htail⟩

/-- Whatever stands behind the string, it is refused. -/
def Refused (parse : List UInt8 → Bool × VURL) : Prop := ∃ url, ∀ beyond, parse beyond = (false, url)

theorem urlParseAddress_cases (front tail : List UInt8) :
    (∃ rest, tail = urlSeparator ++ rest) ∨
      Refused fun beyond => urlParseAddress (front ++ tail) beyond front.length url := by
  by_cases hsep : ∃ rest, tail = urlSeparator ++ rest
  · exact Or.inl hsep
  · exact Or.inr ⟨url, fun beyond => urlParseAddress_other beyond url (not_exists.mp hsep)⟩

theorem urlParseSecurity_cases (front tail : List UInt8) :
    (∃ (security : UrlSecurity) (rest : List UInt8), tail = security.text ++ urlSeparator ++ rest) ∨
      Refused fun beyond => urlParseSecurity (front ++ tail) beyond front.length url := by
  have hbehind : (front ++ tail).drop front.length = tail := List.drop_left
  unfold urlParseSecurity
  rw [hbehind]
  -- the three words are looked for one after the other
  have hword : ∀ (security : UrlSecurity) (url : VURL), security.text.isPrefixOf tail = true →
      (∃ (security : UrlSecurity) (rest : List UInt8), tail = security.text ++ urlSeparator ++ rest) ∨
        Refused fun beyond =>
          urlParseAddress (front ++ tail) beyond (front.length + security.text.length) url := by
    intro security url hbegin
    obtain ⟨behind, rfl⟩ := isPrefixOf_split hbegin
    rw [← List.append_assoc, ← List.length_append]
    rcases urlParseAddress_cases url (front ++ security.text) behind with ⟨rest, rfl⟩ | hrefused
    · exact Or.inl ⟨security, rest, (List.append_assoc _ _ _).symm⟩
    · exact Or.inr hrefused
  by_cases hnone : (ascii "none").isPrefixOf tail = true
  · simp only [if_pos hnone]
    exact hword .none _ hnone
  by_cases hdtls : (ascii "dtls").isPrefixOf tail = true
  · simp only [if_neg hnone, if_pos hdtls]
    exact hword .dtls _ hdtls
  by_cases htls : (ascii "tls").isPrefixOf tail = true
  · simp only [if_neg hnone, if_neg hdtls, if_pos htls]
    exact hword .tls _ htls
  · simp only [if_neg hnone, if_neg hdtls, if_neg htls]
    exact Or.inr ⟨url, fun _ => rfl⟩

/-- Both transport protocols are followed by the second dash. -/
theorem urlParseTransport_cases (tcp : Bool) {behind : List UInt8}
    (hbegin : (if tcp then ascii "tcp" else ascii "udp").isPrefixOf behind = true) :
    (∃ (scheme : UrlScheme) (rest : List UInt8), scheme ≠ .wss ∧
      ascii "verse" ++ 45 :: behind = scheme.text ++ urlSeparator ++ rest) ∨
    Refused fun beyond =>
      if ((ascii "verse" ++ 45 :: behind).drop 9).head? = some 45 then
        urlParseSecurity (ascii "verse" ++ 45 :: behind) beyond 10 url
      else (false, url) := by
  obtain ⟨after, rfl⟩ := isPrefixOf_split hbegin
  by_cases hsecond : after.head? = some 45
  case pos =>
    obtain ⟨security, rfl⟩ := head?_split hsecond
    rcases urlParseSecurity_cases url
        (ascii "verse-" ++ (if tcp then ascii "tcp" else ascii "udp") ++ ascii "-") security with
      ⟨sec, rest, rfl⟩ | ⟨url', hurl'⟩
    · refine Or.inl ⟨.verse tcp sec, rest, UrlScheme.noConfusion, ?_⟩
      cases tcp <;> rfl
    · refine Or.inr ⟨url', fun beyond => ?_⟩
      have hparse := hurl' beyond
      cases tcp <;> exact hparse
  case neg =>
    refine Or.inr ⟨url, fun beyond => ?_⟩
    cases tcp <;> exact if_neg hsecond

theorem vUrlParse_cases (str : List UInt8) :
    (∃ (scheme : UrlScheme) (rest : List UInt8), scheme ≠ .wss ∧
      str = scheme.text ++ urlSeparator ++ rest) ∨ Refused fun beyond => vUrlParse str beyond url := by
  unfold vUrlParse
  by_cases hverse : (ascii "verse").isPrefixOf str = true
  case neg =>
    simp only [if_neg hverse]
    by_cases hws : (ascii "ws").isPrefixOf str = true
    case pos =>
      simp only [if_pos hws]
      obtain ⟨tail, rfl⟩ := isPrefixOf_split hws
      rcases urlParseAddress_cases
          { url with securityProtocol := vrsSecDataNone, transportProtocol := vrsTpWebsocket }
          (ascii "ws") tail with ⟨rest, rfl⟩ | hrefused
      · exact Or.inl ⟨.ws, rest, by decide, (List.append_assoc _ _ _).symm⟩
      · exact Or.inr hrefused
    case neg =>
      have hwss : ¬ (ascii "wss").isPrefixOf str = true := by
        intro hbegin
        obtain ⟨tail, rfl⟩ := isPrefixOf_split hbegin
        exact hws rfl
      simp only [if_neg hws, if_neg hwss]
      exact Or.inr ⟨url, fun _ => rfl⟩
  case pos =>
    simp only [if_pos hverse]
    obtain ⟨tail, rfl⟩ := isPrefixOf_split hverse
    by_cases hdash : ((ascii "verse" ++ tail).drop 5).head? = some 45
    case neg =>
      simp only [if_neg hdash]
      exact Or.inr ⟨url, fun _ => rfl⟩
    case pos =>
      simp only [if_pos hdash]
      obtain ⟨behind, rfl⟩ : ∃ behind, tail = 45 :: behind := head?_split hdash
      by_cases hudp : (ascii "udp").isPrefixOf behind = true
      · have hbehind : (ascii "udp").isPrefixOf ((ascii "verse" ++ 45 :: behind).drop 6) = true := hudp
        simp only [if_pos hbehind]
        exact urlParseTransport_cases _ false hudp
      by_cases htcp : (ascii "tcp").isPrefixOf behind = true
      · have hno : ¬ (ascii "udp").isPrefixOf ((ascii "verse" ++ 45 :: behind).drop 6) = true := hudp
        have hbehind : (ascii "tcp").isPrefixOf ((ascii "verse" ++ 45 :: behind).drop 6) = true := htcp
        simp only [if_neg hno, if_pos hbehind]
        exact urlParseTransport_cases _ true htcp
      · have hno : ¬ (ascii "udp").isPrefixOf ((ascii "verse" ++ 45 :: behind).drop 6) = true := hudp
        have hno' : ¬ (ascii "tcp").isPrefixOf ((ascii "verse" ++ 45 :: behind).drop 6) = true := htcp
        simp only [if_neg hno, if_neg hno']
        exact Or.inr ⟨url, fun _ => rfl⟩

end Scheme

/-! ## The address -/

theorem findIdx_first {c : UInt8} {front : List UInt8} (hfront : c ∉ front) (rest : List UInt8) :
    (front ++ c :: rest).findIdx (· = c) = front.length := by
  induction front with
  | nil => simp [List.findIdx_cons]
  | cons d front ih =>
      obtain ⟨hd, htail⟩ := List.ne_and_not_mem_of_not_mem_cons hfront
      have hne : (d = c) = False := eq_false (Ne.symm hd)
      rw [List.cons_append, List.findIdx_cons, ih htail, List.length_cons]
      simp only [hne, decide_false, cond_false]

theorem cString_zero {str : List UInt8} (hstr : 0 ∉ str) (beyond : List UInt8) :
    cString (str ++ 0 :: beyond) = str := by
  have hall : ∀ c ∈ str, decide (c ≠ 0) = true := by
    intro c hc
    exact decide_eq_true fun hzero => hstr (hzero ▸ hc)
  unfold cString
  rw [List.takeWhile_append_of_pos hall, List.takeWhile_cons_of_neg (by decide), List.append_nil]

theorem addressParse_fst (beyond : List UInt8) (url : VURL) (rest : List UInt8) :
    (addressParse beyond url rest).1 = true := by
  unfold addressParse
  by_cases hbracket : rest.head? = some 91
  · rw [if_pos hbracket]
  · rw [if_neg hbracket]

/-- An address is stored as it is. -/
theorem addressParse_text {address : UrlAddress} (hwf : address.Wf) (hservice : 0 ∉ address.service)
    (beyond : List UInt8) (url : VURL) :
    addressParse beyond url address.text =
      (true, { url with
        node := some address.node
        ipv6 := address.ipv6
        service := some address.service }) := by
  obtain ⟨ipv6, node, service⟩ := address
  cases ipv6 with
  | true =>
      have hnode : 93 ∉ 91 :: node := by
        rw [List.mem_cons, not_or]
        exact ⟨by decide, hwf⟩
      have htext : (UrlAddress.mk true node service).text = (91 :: node) ++ 93 :: 58 :: service := by
        simp [UrlAddress.text]
      have hidx := findIdx_first hnode (58 :: service)
      have hlt : (91 :: node).length < ((91 :: node) ++ 93 :: 58 :: service).length := by
        rw [List.length_append]
        exact Nat.lt_add_of_pos_right (Nat.succ_pos _)
      have hafter : ((91 :: node) ++ 93 :: 58 :: service ++ 0 :: beyond).drop
          ((91 :: node).length + 2) = service ++ 0 :: beyond := by
        rw [List.append_assoc, List.drop_length_add_append]
        rfl
      have hbefore : (((91 :: node) ++ 93 :: 58 :: service).drop 1).take ((91 :: node).length - 1) =
          node := List.take_left
      have hbracket : ((91 :: node) ++ 93 :: 58 :: service).head? = some 91 := rfl
      rw [htext, addressParse, if_pos hbracket]
      simp only [hidx, if_pos hlt, hafter, hbefore, cString_zero hservice]
  | false =>
      obtain ⟨hnode, hhead⟩ : 58 ∉ node ∧ node.head? ≠ some 91 := hwf
      have htext : (UrlAddress.mk false node service).text = node ++ 58 :: service := rfl
      have hbracket : ¬ (node ++ 58 :: service).head? = some 91 := by
        cases node with
        | nil => exact fun hcolon => absurd (Option.some.inj hcolon) (by decide)
        | cons c node => exact hhead
      have hidx := findIdx_first hnode service
      have hlt : node.length < (node ++ 58 :: service).length := by
        rw [List.length_append, List.length_cons]
        omega
      have hafter : (node ++ 58 :: service ++ 0 :: beyond).drop (node.length + 1) =
          service ++ 0 :: beyond := by
        rw [List.append_assoc, List.drop_length_add_append]
        rfl
      have hbefore : (node ++ 58 :: service).take node.length = node := List.take_left
      rw [htext, addressParse, if_neg hbracket]
      simp only [hidx, if_pos hlt, hafter, hbefore, cString_zero hservice]

/-! ## The whole string -/

/-- No scheme contains a colon. -/
theorem colon_not_mem_scheme (scheme : UrlScheme) : 58 ∉ scheme.text := by
  cases scheme with
  | ws => decide
  | wss => decide
  | verse tcp security => cases tcp <;> cases security <;> decide

/-- The scheme with the given text. -/
def UrlScheme.ofText (text : List UInt8) : Option UrlScheme :=
  [.verse false .none, .verse false .dtls, .verse false .tls, .verse true .none, .verse true .dtls,
    .verse true .tls, .ws, .wss].find? fun scheme => scheme.text = text

theorem UrlScheme.ofText_text (scheme : UrlScheme) : ofText scheme.text = some scheme := by
  cases scheme with
  | ws => decide
  | wss => decide
  | verse tcp security => cases tcp <;> cases security <;> decide

/-- The first colon of a string with a scheme is the one of the separator. -/
theorem scheme_unique {scheme scheme' : UrlScheme} {rest rest' : List UInt8}
    (h : scheme.text ++ urlSeparator ++ rest = scheme'.text ++ urlSeparator ++ rest') :
    scheme = scheme' ∧ rest = rest' := by
  have hcolon : ∀ (s : UrlScheme) (r : List UInt8), s.text ++ urlSeparator ++ r =
      s.text ++ 58 :: ([47, 47] ++ r) := fun s r => List.append_assoc _ _ _
  rw [hcolon, hcolon] at h
  have hidx := congrArg (List.findIdx (· = 58)) h
  rw [findIdx_first (colon_not_mem_scheme scheme), findIdx_first (colon_not_mem_scheme scheme')]
    at hidx
  obtain ⟨htext, hrest⟩ := List.append_inj h hidx
  have hscheme : some scheme = some scheme' := by
    rw [← UrlScheme.ofText_text scheme, htext, UrlScheme.ofText_text]
  exact ⟨Option.some.inj hscheme, List.append_cancel_left (List.cons.inj hrest).2⟩

theorem service_not_zero {scheme : UrlScheme} {address : UrlAddress}
    (h : 0 ∉ urlText scheme address) : 0 ∉ address.service := by
  intro hmem
  refine h (List.mem_append_right _ ?_)
  exact List.mem_append_right _ (List.mem_cons_of_mem _ hmem)

/-- A URL is accepted and its parts are stored, unless it has the scheme `wss`. -/
theorem vUrlParse_urlText {scheme : UrlScheme} (hscheme : scheme ≠ .wss) {address : UrlAddress}
    (hwf : address.Wf) (hservice : 0 ∉ address.service) (beyond : List UInt8) (url : VURL) :
    vUrlParse (urlText scheme address) beyond url = (true, urlParts scheme address) := by
  rw [urlText, vUrlParse_scheme beyond url hscheme, addressParse_text hwf hservice]
  rfl

/-- URLs with the scheme `wss` are refused. -/
theorem vUrlParse_wss (address : UrlAddress) (beyond : List UInt8) (url : VURL) :
    (vUrlParse (urlText .wss address) beyond url).1 = false := by
  rcases vUrlParse_cases url (urlText .wss address) with ⟨scheme, rest, hne, heq⟩ | ⟨url', hrefused⟩
  · exact absurd (scheme_unique heq).1.symm hne
  · exact congrArg Prod.fst (hrefused beyond)

/-- **When the parser is right.** -/
theorem urlParsed_iff {str : List UInt8} (hstr : 0 ∉ str) : UrlParsed str ↔ UrlHandled str := by
  constructor
  case mp =>
    intro h
    constructor
    · intro address hwf heq
      have htrue := (h.accepts vUrlInit []).mpr ⟨.wss, address, hwf, heq⟩
      rw [heq, vUrlParse_wss] at htrue
      cases htrue
    · intro scheme rest hne heq
      have htrue : (vUrlParse str [] vUrlInit).1 = true := by
        rw [heq, vUrlParse_scheme [] vUrlInit hne]
        exact addressParse_fst _ _ _
      obtain ⟨scheme', address, hwf, htext⟩ := (h.accepts vUrlInit []).mp htrue
      exact ⟨address, hwf, (scheme_unique (heq.symm.trans htext)).2⟩
  case mpr =>
    intro h
    have hurl : ∀ scheme address, address.Wf → str = urlText scheme address → ∀ url beyond,
        vUrlParse str beyond url = (true, urlParts scheme address) := by
      intro scheme address hwf heq url beyond
      have hne : scheme ≠ .wss := by
        intro hwss
        exact h.notWss address hwf (hwss ▸ heq)
      rw [heq]
      exact vUrlParse_urlText hne hwf (service_not_zero (heq ▸ hstr)) beyond url
    have hother : ∀ url, (∃ scheme address, address.Wf ∧ str = urlText scheme address) ∨
        Refused fun beyond => vUrlParse str beyond url := by
      intro url
      rcases vUrlParse_cases url str with ⟨scheme, rest, hne, heq⟩ | hrefused
      · obtain ⟨address, hwf, rfl⟩ := h.address scheme rest hne heq
        exact Or.inl ⟨scheme, address, hwf, heq⟩
      · exact Or.inr hrefused
    constructor
    · intro url beyond
      constructor
      · intro htrue
        rcases hother url with hgrammar | ⟨url', hrefused⟩
        · exact hgrammar
        · have hfalse : (vUrlParse str beyond url).1 = false := congrArg Prod.fst (hrefused beyond)
          rw [hfalse] at htrue
          cases htrue
      · rintro ⟨scheme, address, hwf, heq⟩
        rw [hurl scheme address hwf heq]
    · intro scheme address hwf heq url beyond
      rw [hurl scheme address hwf heq]
    · intro url beyond beyond'
      rcases hother url with ⟨scheme, address, hwf, heq⟩ | ⟨url', hrefused⟩
      · rw [hurl scheme address hwf heq, hurl scheme address hwf heq]
      · exact (hrefused beyond).trans (hrefused beyond').symm

/-- `ws://host:80`. -/
theorem urlParsed_ws : UrlParsed (ascii "ws://host:80") := by
  have htext : ascii "ws://host:80" = UrlScheme.ws.text ++ urlSeparator ++ ascii "host:80" := rfl
  have hhandled : UrlHandled (ascii "ws://host:80") := by
    constructor
    · intro address _ heq
      have hscheme := (scheme_unique (htext.symm.trans heq)).1
      exact absurd hscheme (by decide)
    · intro scheme rest _ heq
      obtain ⟨-, rfl⟩ := scheme_unique (htext.symm.trans heq)
      exact ⟨⟨false, ascii "host", ascii "80"⟩, by decide, rfl⟩
  exact (urlParsed_iff (by decide)).mpr hhandled

/-- `ws://host`: the service is what stands behind the string. -/
theorem not_urlParsed : ¬ ∀ str : List UInt8, 0 ∉ str → UrlParsed str := by
  intro hall
  have hsame := (hall (ascii "ws://host") (by decide)).reads vUrlInit [65] [66]
  have hservice := congrArg (·.2.service) hsame
  exact absurd hservice (by decide)

end Verse
