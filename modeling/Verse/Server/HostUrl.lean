import Verse.Server.UrlGrammar

/-!
# The URL of the data connection

Unless the client proposed the URL of the WebSocket connection itself, the server builds a
new URL: with the host of the proposed one, but with the transport and security protocol of
the data connection and the port it chose.  The text is printed to `UCHAR_MAX` bytes,
however long the host is, and its scheme is taken from the flags of the session, in which
the protocol of the connection is set as well.

## Strategy

`hostUrlText_eq` says which URL is built (`hostScheme`), and `vUrlParse_urlText` then reads
it back.
-/

namespace Verse

open Lib

/-! ## The URL that is built -/

/-- The proposed URL after TCP was made secure. -/
def TokenDed.dataUrl (t : TokenDed) : VURL :=
  if t.url.transportProtocol = vrsTpTcp then { t.url with securityProtocol := vrsSecDataTls }
  else t.url

/-- `host_url`, as `vs_NEGOTIATE_token_ded_loop` builds it. -/
def TokenDed.hostUrl (env : ServerEnv) (t : TokenDed) : List UInt8 :=
  hostUrlText env t.newFlags t.dataUrl

/-- It is what the session has afterwards. -/
theorem vsNegotiateTokenDedLoop_hostUrl {env : ServerEnv} {session : VSession}
    {cmds : List MessageCmd} (hcomplete : (tokenDedCmds env session cmds).complete = true)
    (hurl : (tokenDedCmds env session cmds).urlConfirmed env = false)
    (hthread : env.threadCreated = true) :
    (vsNegotiateTokenDedLoop env session cmds).session.hostUrl =
      some ((tokenDedCmds env session cmds).hostUrl env) := by
  simp [vsNegotiateTokenDedLoop, hcomplete, hurl, hthread]
  rfl

/-- The port in decimal. -/
def portText (port : UInt16) : List UInt8 :=
  (Nat.toDigits 10 port.toNat).map fun c => UInt8.ofNat c.toNat

/-- `UCHAR_MAX`, the number of bytes that are allocated for the URL. -/
def uCharMax : ℕ := 255

/-- The server can secure data connections. -/
def ServerEnv.tls (env : ServerEnv) : Bool := hasFlag env.securityProtocol vrsSecDataTls

/-- The security protocol of the data connection: what the client asked for, if the server
has it. -/
def TokenDed.dataSecurity (env : ServerEnv) (t : TokenDed) : UInt16 :=
  if t.dataUrl.securityProtocol = vrsSecDataTls ∧ env.tls then vrsSecDataTls else vrsSecDataNone

/-- **The URL is valid**: it fits into its memory, and the client reads the same host, the
protocols of the data connection and its port. -/
structure HostUrlValid (env : ServerEnv) (t : TokenDed) : Prop where
  fits : (t.hostUrl env).length + 1 ≤ uCharMax
  comesBack : ∀ beyond, ∃ url, vUrlParse (t.hostUrl env) beyond vUrlInit = (true, url) ∧
    url.node = t.url.node ∧ url.ipv6 = t.url.ipv6 ∧
    url.transportProtocol = t.url.transportProtocol ∧
    url.securityProtocol = t.dataSecurity env ∧ url.service = some (portText env.port)

/-- The scheme of a data connection. -/
def dataScheme (transport security : UInt16) : UrlScheme :=
  if transport = vrsTpWebsocket then .ws
  else .verse (transport = vrsTpTcp)
    (if security = vrsSecDataNone then .none else if transport = vrsTpTcp then .tls else .dtls)

/-- No other transport protocol that has precedence is set for the session: WebSocket for
UDP and TCP, and UDP for TCP. -/
def OwnTransport (flags transport : UInt16) : Prop :=
  transport = vrsTpWebsocket ∨
    hasFlag flags vrsTpWebsocket = false ∧ (transport = vrsTpUdp ∨ hasFlag flags vrsTpUdp = false)

/-- The URL with the scheme of the data connection has at most 254 bytes, and the session has
no other transport protocol. -/
structure HostUrlFits (env : ServerEnv) (t : TokenDed) (node : List UInt8) : Prop where
  size : (dataScheme t.url.transportProtocol (t.dataSecurity env)).text.length + 3 +
    ((if t.url.ipv6 then 2 else 0) + node.length) + 1 + (portText env.port).length < uCharMax
  transport : OwnTransport t.session.flags t.url.transportProtocol

/-! ## Flags -/

theorem hasFlag_or (a b flag : UInt16) :
    hasFlag (a ||| b) flag = (hasFlag a flag || hasFlag b flag) := by
  have hdistrib : (a ||| b) &&& flag = (a &&& flag) ||| (b &&& flag) :=
    UInt16.toBitVec_inj.mp BitVec.and_or_distrib_right
  rw [hasFlag, hasFlag, hasFlag, hdistrib, Bool.eq_iff_iff]
  simp only [bne_iff_ne, ne_eq, UInt16.or_eq_zero_iff, Bool.or_eq_true, not_and_or]

/-! ## What the parser stored -/

/-- The protocols and the host of an accepted URL. -/
structure UrlStored (url : VURL) (node : List UInt8) : Prop where
  protocols : ∃ scheme : UrlScheme, scheme ≠ .wss ∧ url.transportProtocol = scheme.transport ∧
    url.securityProtocol = scheme.security
  host : url.node = some node
  wf : ∀ service, (UrlAddress.mk url.ipv6 node service).Wf

theorem not_mem_take_findIdx (c : UInt8) (l : List UInt8) : c ∉ l.take (l.findIdx (· = c)) := by
  induction l with
  | nil => exact List.not_mem_nil
  | cons d l ih =>
      rw [List.findIdx_cons]
      by_cases hd : d = c
      · simp [hd]
      · simp only [hd, decide_false, cond_false, List.take_succ_cons, List.mem_cons, not_or]
        exact ⟨Ne.symm hd, ih⟩

/-- The host of an address, if one was found. -/
theorem addressParse_node {beyond : List UInt8} {url : VURL} {rest node : List UInt8}
    (hnone : url.node = none) (hnode : (addressParse beyond url rest).2.node = some node)
    (service : List UInt8) :
    (UrlAddress.mk (addressParse beyond url rest).2.ipv6 node service).Wf := by
  unfold addressParse at hnode ⊢
  by_cases hbracket : rest.head? = some 91
  case pos =>
    obtain ⟨after, rfl⟩ := head?_split hbracket
    simp only [if_pos hbracket] at hnode ⊢
    by_cases hfound : (91 :: after).findIdx (· = 93) < (91 :: after).length
    · simp only [if_pos hfound] at hnode ⊢
      obtain rfl := Option.some.inj hnode
      have hidx : (91 :: after).findIdx (· = 93) = after.findIdx (· = 93) + 1 := by
        simp [List.findIdx_cons]
      show 93 ∉ _
      rw [hidx]
      exact not_mem_take_findIdx 93 after
    · simp only [if_neg hfound, hnone] at hnode
      cases hnode
  case neg =>
    simp only [if_neg hbracket] at hnode ⊢
    by_cases hfound : rest.findIdx (· = 58) < rest.length
    · simp only [if_pos hfound] at hnode ⊢
      obtain rfl := Option.some.inj hnode
      refine ⟨not_mem_take_findIdx 58 rest, ?_⟩
      rw [List.head?_take]
      split
      · intro hhead
        cases hhead
      · exact hbracket
    · simp only [if_neg hfound, hnone] at hnode
      cases hnode

theorem urlStored_of_parse {str beyond node : List UInt8}
    (haccepted : (vUrlParse str beyond vUrlInit).1 = true)
    (hnode : (vUrlParse str beyond vUrlInit).2.node = some node) :
    UrlStored (vUrlParse str beyond vUrlInit).2 node := by
  rcases vUrlParse_cases vUrlInit str with ⟨scheme, rest, hne, rfl⟩ | ⟨url', hrefused⟩
  case inr =>
    have hfalse : (vUrlParse str beyond vUrlInit).1 = false := congrArg Prod.fst (hrefused beyond)
    rw [hfalse] at haccepted
    cases haccepted
  case inl =>
    rw [vUrlParse_scheme beyond vUrlInit hne] at hnode ⊢
    refine ⟨⟨scheme, hne, ?_, ?_⟩, hnode, addressParse_node rfl hnode⟩
    all_goals
      unfold addressParse
      split <;> dsimp only <;> split <;> rfl

/-! ## The text -/

/-- The scheme that is printed. -/
def hostScheme (env : ServerEnv) (flags security : UInt16) : UrlScheme :=
  if hasFlag flags vrsTpWebsocket ∧ security = vrsSecDataNone then .ws
  else if hasFlag flags vrsTpWebsocket ∧ security = vrsSecDataTls then .wss
  else
    .verse (!hasFlag flags vrsTpUdp)
      (if security = vrsSecDataNone ∨ ¬ env.tls then .none
        else if hasFlag flags vrsTpUdp then .dtls else .tls)

theorem hostUrlText_eq {env : ServerEnv} {flags : UInt16} {url : VURL} {node : List UInt8}
    (hnode : url.node = some node)
    (hsecurity : url.securityProtocol = vrsSecDataNone ∨ url.securityProtocol = vrsSecDataTls)
    (hflags : hasFlag flags vrsTpUdp = true ∨ hasFlag flags vrsTpTcp = true ∨
      hasFlag flags vrsTpWebsocket = true) :
    hostUrlText env flags url = urlText (hostScheme env flags url.securityProtocol)
      ⟨url.ipv6, node, portText env.port⟩ := by
  have hscheme :
      (if hasFlag flags vrsTpWebsocket ∧ url.securityProtocol = vrsSecDataNone then ascii "ws"
      else if hasFlag flags vrsTpWebsocket ∧ url.securityProtocol = vrsSecDataTls then ascii "wss"
      else ascii "verse-" ++
        (if hasFlag flags vrsTpUdp then ascii "udp"
          else if hasFlag flags vrsTpTcp then ascii "tcp"
          else []) ++ ascii "-" ++
        (if url.securityProtocol = vrsSecDataNone ∨ ¬ hasFlag env.securityProtocol vrsSecDataTls then
            ascii "none"
          else if url.securityProtocol = vrsSecDataTls then
            if hasFlag flags vrsTpUdp then ascii "dtls"
            else if hasFlag flags vrsTpTcp then ascii "tls"
            else []
          else ascii "none")) = (hostScheme env flags url.securityProtocol).text := by
    have htls : (vrsSecDataTls = vrsSecDataNone) = False := by decide
    have hnone : (vrsSecDataNone = vrsSecDataTls) = False := by decide
    unfold hostScheme ServerEnv.tls
    cases hudp : hasFlag flags vrsTpUdp <;> cases htcp : hasFlag flags vrsTpTcp <;>
      cases hws : hasFlag flags vrsTpWebsocket <;>
      cases hasFlag env.securityProtocol vrsSecDataTls <;>
      rcases hsecurity with hsec | hsec <;>
      simp [hsec, htls, hnone, UrlScheme.text, UrlSecurity.text, hudp, htcp, hws] at hflags ⊢
  have hprinted : hostUrlText env flags url =
      (hostScheme env flags url.securityProtocol).text ++ ascii "://" ++
        (if url.ipv6 then ascii "[" ++ node ++ ascii "]" else node) ++ ascii ":" ++
        portText env.port := by
    rw [← hscheme]
    unfold hostUrlText
    rw [hnode]
    rfl
  rw [hprinted, urlText, List.append_assoc, List.append_assoc]
  unfold UrlAddress.text
  cases url.ipv6 with
  | true => simp [ascii, urlSeparator]
  | false => rfl

theorem length_urlText (scheme : UrlScheme) (address : UrlAddress) :
    (urlText scheme address).length =
      scheme.text.length + 3 + ((if address.ipv6 then 2 else 0) + address.node.length) + 1 +
        address.service.length := by
  have hsep : urlSeparator.length = 3 := rfl
  simp only [urlText, UrlAddress.text, List.length_append, List.length_cons, hsep]
  cases address.ipv6 <;> simp <;> omega

/-- A port has only digits. -/
theorem zero_not_mem_portText (port : UInt16) : 0 ∉ portText port := by
  intro hmem
  obtain ⟨c, hc, hzero⟩ := List.mem_map.mp hmem
  have hdigit : c.isDigit = true := Nat.isDigit_of_mem_toDigits (by decide) (by decide) hc
  have hrange : 48 ≤ c.toNat ∧ c.toNat ≤ 57 := by
    simpa [Char.isDigit, UInt32.le_iff_toNat_le] using hdigit
  have hval := congrArg UInt8.toNat hzero
  rw [UInt8.toNat_ofNat'] at hval
  have hsmall : c.toNat % 2 ^ 8 = c.toNat := Nat.mod_eq_of_lt (by omega)
  have hnat : c.toNat = 0 := hsmall.symm.trans hval
  omega

section Schemes

variable {env : ServerEnv} {t : TokenDed} {scheme : UrlScheme}

theorem newFlags_has (htransport : t.url.transportProtocol = scheme.transport)
    (hsecurity : t.url.securityProtocol = scheme.security) (flag : UInt16)
    (hflag : hasFlag vrsSecDataNone flag = false ∧ hasFlag vrsSecDataTls flag = false) :
    hasFlag t.newFlags flag = (hasFlag t.session.flags flag || hasFlag scheme.transport flag) := by
  have hother : hasFlag scheme.security flag = false := by
    cases scheme with
    | ws => exact hflag.1
    | wss => exact hflag.2
    | verse tcp security =>
        cases security with
        | none => exact hflag.1
        | dtls => exact hflag.2
        | tls => exact hflag.2
  unfold TokenDed.newFlags
  rw [hasFlag_or, hasFlag_or, htransport, hsecurity]
  by_cases htcp : scheme.transport = vrsTpTcp
  · rw [if_pos htcp, hflag.2, Bool.or_false]
  · rw [if_neg htcp, hother, Bool.or_false]

theorem dataUrl_security (htransport : t.url.transportProtocol = scheme.transport)
    (hsecurity : t.url.securityProtocol = scheme.security) :
    t.dataUrl.securityProtocol =
      if scheme.transport = vrsTpTcp then vrsSecDataTls else scheme.security := by
  unfold TokenDed.dataUrl
  rw [htransport]
  split
  · rfl
  · exact hsecurity

/-- Which scheme is printed: the one of the data connection, or one with another
protocol. -/
theorem hostScheme_cases (hne : scheme ≠ .wss)
    (htransport : t.url.transportProtocol = scheme.transport)
    (hsecurity : t.url.securityProtocol = scheme.security) :
    OwnTransport t.session.flags t.url.transportProtocol ∧
        hostScheme env t.newFlags t.dataUrl.securityProtocol =
          dataScheme t.url.transportProtocol (t.dataSecurity env) ∨
      ¬ OwnTransport t.session.flags t.url.transportProtocol ∧
        (hostScheme env t.newFlags t.dataUrl.securityProtocol = .wss ∨
          (hostScheme env t.newFlags t.dataUrl.securityProtocol).transport ≠
            t.url.transportProtocol) := by
  have hws := newFlags_has htransport hsecurity vrsTpWebsocket (by decide)
  have hudp := newFlags_has htransport hsecurity vrsTpUdp (by decide)
  have hdata := dataUrl_security htransport hsecurity
  unfold OwnTransport hostScheme dataScheme TokenDed.dataSecurity
  rw [hdata, htransport, hws, hudp]
  generalize hasFlag t.session.flags vrsTpWebsocket = ws
  generalize hasFlag t.session.flags vrsTpUdp = udp
  generalize env.tls = tls
  cases scheme with
  | wss => exact absurd rfl hne
  | ws =>
      left
      cases ws <;> cases udp <;> cases tls <;> decide
  | verse tcp security =>
      cases tcp <;> cases security <;> cases ws <;> cases udp <;> cases tls <;> decide

/-- The scheme of the data connection has its protocols. -/
theorem dataScheme_spec (hne : scheme ≠ .wss)
    (htransport : t.url.transportProtocol = scheme.transport)
    (hsecurity : t.url.securityProtocol = scheme.security) :
    dataScheme t.url.transportProtocol (t.dataSecurity env) ≠ .wss ∧
      (dataScheme t.url.transportProtocol (t.dataSecurity env)).transport =
        t.url.transportProtocol ∧
      (dataScheme t.url.transportProtocol (t.dataSecurity env)).security = t.dataSecurity env := by
  have hdata := dataUrl_security htransport hsecurity
  unfold dataScheme TokenDed.dataSecurity
  rw [hdata, htransport]
  generalize env.tls = tls
  cases scheme with
  | wss => exact absurd rfl hne
  | ws => cases tls <;> decide
  | verse tcp security => cases tcp <;> cases security <;> cases tls <;> decide

end Schemes

/-! ## When the URL is valid -/

/-- The URL that is built from an accepted one. -/
theorem hostUrl_eq {env : ServerEnv} {t : TokenDed} {node : List UInt8} (h : UrlStored t.url node) :
    t.hostUrl env = urlText (hostScheme env t.newFlags t.dataUrl.securityProtocol)
      ⟨t.url.ipv6, node, portText env.port⟩ := by
  obtain ⟨scheme, hne, htransport, hsecurity⟩ := h.protocols
  have hhost : t.dataUrl.node = some node ∧ t.dataUrl.ipv6 = t.url.ipv6 := by
    unfold TokenDed.dataUrl
    split
    · exact ⟨h.host, rfl⟩
    · exact ⟨h.host, rfl⟩
  have hdata : t.dataUrl.securityProtocol = vrsSecDataNone ∨
      t.dataUrl.securityProtocol = vrsSecDataTls := by
    rw [dataUrl_security htransport hsecurity]
    cases scheme with
    | ws => exact Or.inl rfl
    | wss => exact absurd rfl hne
    | verse tcp security => cases tcp <;> cases security <;> decide
  have hflags : hasFlag t.newFlags vrsTpUdp = true ∨ hasFlag t.newFlags vrsTpTcp = true ∨
      hasFlag t.newFlags vrsTpWebsocket = true := by
    rw [newFlags_has htransport hsecurity _ (by decide),
      newFlags_has htransport hsecurity _ (by decide),
      newFlags_has htransport hsecurity _ (by decide)]
    have hown : hasFlag scheme.transport vrsTpUdp = true ∨ hasFlag scheme.transport vrsTpTcp = true ∨
        hasFlag scheme.transport vrsTpWebsocket = true := by
      cases scheme with
      | ws => decide
      | wss => decide
      | verse tcp security => cases tcp <;> cases security <;> decide
    simp only [Bool.or_eq_true]
    exact hown.imp Or.inr (Or.imp Or.inr Or.inr)
  unfold TokenDed.hostUrl
  rw [hostUrlText_eq hhost.1 hdata hflags, hhost.2]

/-- **When the URL of the data connection is valid**, for a proposed URL that is accepted
with a host. -/
theorem hostUrlValid_iff {env : ServerEnv} {t : TokenDed} {str beyond node : List UInt8}
    (hurl : t.url = (vUrlParse str beyond vUrlInit).2)
    (haccepted : (vUrlParse str beyond vUrlInit).1 = true) (hnode : t.url.node = some node) :
    HostUrlValid env t ↔ HostUrlFits env t node := by
  have hstored : UrlStored t.url node := by
    rw [hurl] at hnode ⊢
    exact urlStored_of_parse haccepted hnode
  obtain ⟨scheme, hne, htransport, hsecurity⟩ := hstored.protocols
  have hbuilt := @hostUrl_eq env t node hstored
  have hlength := length_urlText (hostScheme env t.newFlags t.dataUrl.securityProtocol)
    ⟨t.url.ipv6, node, portText env.port⟩
  obtain ⟨hdata, hdataTransport, hdataSecurity⟩ :=
    @dataScheme_spec env t scheme hne htransport hsecurity
  rcases @hostScheme_cases env t scheme hne htransport hsecurity with
    ⟨hown, hscheme⟩ | ⟨hother, hscheme⟩
  case inl =>
    rw [hscheme] at hbuilt hlength
    constructor
    · intro h
      have hfits := h.fits
      rw [hbuilt, hlength] at hfits
      exact ⟨hfits, hown⟩
    · intro h
      constructor
      · rw [hbuilt, hlength]
        exact h.size
      · intro beyond'
        refine ⟨urlParts (dataScheme t.url.transportProtocol (t.dataSecurity env))
          ⟨t.url.ipv6, node, portText env.port⟩, ?_, hnode.symm, rfl, hdataTransport, hdataSecurity,
          rfl⟩
        rw [hbuilt]
        exact vUrlParse_urlText hdata (hstored.wf _) (zero_not_mem_portText _) beyond' vUrlInit
  case inr =>
    refine iff_of_false (fun h => ?_) fun h => hother h.transport
    obtain ⟨url, hparse, -, -, hback, -, -⟩ := h.comesBack []
    rw [hbuilt] at hparse
    by_cases hwss : hostScheme env t.newFlags t.dataUrl.securityProtocol = .wss
    · have hfalse := vUrlParse_wss ⟨t.url.ipv6, node, portText env.port⟩ [] vUrlInit
      rw [hwss] at hparse
      rw [hparse] at hfalse
      cases hfalse
    · have hparts := vUrlParse_urlText hwss (hstored.wf (portText env.port))
        (zero_not_mem_portText env.port) [] vUrlInit
      obtain ⟨-, rfl⟩ := Prod.mk.inj (hparts.symm.trans hparse)
      exact (hscheme.resolve_left hwss) hback

/-- A server with TLS that chose a port. -/
def tlsServer (port : UInt16) : ServerEnv where
  userAuth _ _ := none
  createAvatarNode _ := none
  userFind _ := none
  randomToken := []
  ded := []
  wsPort := 23456
  securityProtocol := vrsSecDataNone ||| vrsSecDataTls
  port := port
  peerAddr := ⟨false, 40000, [127, 0, 0, 1]⟩
  threadCreated := true
  beyond := []

/-- The handshake after a URL was proposed. -/
def proposed (str : List UInt8) : TokenDed :=
  ⟨vInitSession, (vUrlParse str [] vUrlInit).2, (vUrlParse str [] vUrlInit).1, true, true, true⟩

/-- `verse-udp-dtls://[::1]:1`. -/
theorem hostUrlValid_udp :
    HostUrlValid (tlsServer 50000) (proposed (ascii "verse-udp-dtls://[::1]:1")) := by
  have hfits : HostUrlFits (tlsServer 50000) (proposed (ascii "verse-udp-dtls://[::1]:1"))
      (ascii "::1") := ⟨by decide +kernel, Or.inr (by decide +kernel)⟩
  exact (hostUrlValid_iff rfl (by decide +kernel) (by decide +kernel)).mpr hfits

/-- A host of 236 characters fits into a URL of 255 characters, and with the port of the
server it takes 259. -/
theorem not_hostUrlValid :
    ¬ ∀ (env : ServerEnv) (t : TokenDed) (str beyond : List UInt8), str.length ≤ 255 → 0 ∉ str →
      t.url = (vUrlParse str beyond vUrlInit).2 → (vUrlParse str beyond vUrlInit).1 = true →
      t.url.node ≠ none → HostUrlValid env t := by
  intro hall
  let str := ascii "verse-udp-none://" ++ List.replicate 236 97 ++ ascii ":1"
  have hvalid := hall (tlsServer 50000) (proposed str) str [] (by decide +kernel) (by decide +kernel)
    rfl (by decide +kernel) (by decide +kernel)
  have hlong : ¬ ((proposed str).hostUrl (tlsServer 50000)).length + 1 ≤ uCharMax := by
    decide +kernel
  exact hlong hvalid.fits

end Verse
