import Verse.Stream.Session

/-!
# The handshake of a stream connection

`vs_handshake.c` and `v_url_parse` of `v_network.c`.  Before the data connection is
open, every message that is received is handled by `vs_handle_handshake`, according
to the state of the stream connection.

What the server context, the operating system and the other threads decide is in
`ServerEnv`: the result of the authentication, the avatar node, the random token,
the configuration, the free port, and whether a thread could be created.  The time
of the tokens and the debug prints are left out.
-/

namespace Verse

open Lib

/-- The bytes of a text. -/
def ascii (text : String) : List UInt8 := text.toList.map fun c => UInt8.ofNat c.toNat

/-! ## URLs -/

/-- `VRS_SEC_DATA_NONE`. -/
def vrsSecDataNone : UInt16 := 1

/-- `VRS_SEC_DATA_TLS`. -/
def vrsSecDataTls : UInt16 := 2

/-- `VRS_TP_UDP`. -/
def vrsTpUdp : UInt16 := 4

/-- `VRS_TP_TCP`. -/
def vrsTpTcp : UInt16 := 8

/-- `VRS_TP_WEBSOCKET`. -/
def vrsTpWebsocket : UInt16 := 16

/-- `VURL`; `ipv6` says whether `ip_ver` is `IPV6` and not 0. -/
structure VURL where
  transportProtocol : UInt16
  securityProtocol : UInt16
  ipv6 : Bool
  node : Option (List UInt8)
  scheme : Option (List UInt8)
  service : Option (List UInt8)
  deriving DecidableEq, Repr

/-- `v_url_init`. -/
def vUrlInit : VURL := ⟨0, 0, false, none, none, none⟩

/-- The second half of `v_url_parse`, from the separator behind the scheme on.
Without a colon (or a closing bracket) the service begins behind the end of the
string, where `beyond` stands. -/
def urlParseAddress (str beyond : List UInt8) (pos : ℕ) (url : VURL) : Bool × VURL :=
  if (ascii "://").isPrefixOf (str.drop pos) then
    let url := { url with scheme := some (str.take pos) }
    let pos := pos + 3
    let rest := str.drop pos
    if rest.head? = some 91 then
      let j := rest.findIdx (· = 93)
      let url :=
        if j < rest.length then { url with node := some ((rest.drop 1).take (j - 1)), ipv6 := true }
        else url
      (true, { url with service := some (cString ((str ++ 0 :: beyond).drop (pos + (j + 2)))) })
    else
      let j := rest.findIdx (· = 58)
      let url := if j < rest.length then { url with node := some (rest.take j), ipv6 := false } else url
      (true, { url with service := some (cString ((str ++ 0 :: beyond).drop (pos + (j + 1)))) })
  else (false, url)

/-- The part of `v_url_parse` behind `verse-udp-` or `verse-tcp-`. -/
def urlParseSecurity (str beyond : List UInt8) (pos : ℕ) (url : VURL) : Bool × VURL :=
  if (ascii "none").isPrefixOf (str.drop pos) then
    urlParseAddress str beyond (pos + 4) { url with securityProtocol := vrsSecDataNone }
  else if (ascii "dtls").isPrefixOf (str.drop pos) then
    urlParseAddress str beyond (pos + 4) { url with securityProtocol := vrsSecDataTls }
  else if (ascii "tls").isPrefixOf (str.drop pos) then
    urlParseAddress str beyond (pos + 3) { url with securityProtocol := vrsSecDataTls }
  else (false, url)

/-- `v_url_parse`: whether the URL is correct, and what `url` holds afterwards.
The scheme `wss` is never reached, as it begins with `ws`. -/
def vUrlParse (str beyond : List UInt8) (url : VURL) : Bool × VURL :=
  if (ascii "verse").isPrefixOf str then
    if (str.drop 5).head? = some 45 then
      if (ascii "udp").isPrefixOf (str.drop 6) then
        let url := { url with transportProtocol := vrsTpUdp }
        if (str.drop 9).head? = some 45 then urlParseSecurity str beyond 10 url
        else (false, url)
      else if (ascii "tcp").isPrefixOf (str.drop 6) then
        let url := { url with transportProtocol := vrsTpTcp }
        if (str.drop 9).head? = some 45 then urlParseSecurity str beyond 10 url
        else (false, url)
      else (false, url)
    else (false, url)
  else if (ascii "ws").isPrefixOf str then
    urlParseAddress str beyond 2
      { url with securityProtocol := vrsSecDataNone, transportProtocol := vrsTpWebsocket }
  else if (ascii "wss").isPrefixOf str then
    urlParseAddress str beyond 3
      { url with securityProtocol := vrsSecDataTls, transportProtocol := vrsTpWebsocket }
  else (false, url)

/-- `sscanf` with `"%ud"` into a variable that is 0. -/
def sscanfUnsigned (text : List UInt8) : ℕ :=
  let text := text.dropWhile fun c => c = 32 || (9 ≤ c && c ≤ 13)
  let negative := text.head? = some 45
  let text := if text.head? = some 45 ∨ text.head? = some 43 then text.drop 1 else text
  let digits := text.takeWhile fun c => 48 ≤ c && c ≤ 57
  let value := min (digits.foldl (fun n c => 10 * n + (c.toNat - 48)) 0) (2 ^ 64 - 1)
  (if negative then 2 ^ 64 - value else value) % 2 ^ 32

/-- What the handshake takes from the server context and from the system. -/
structure ServerEnv where
  /-- `vs_user_auth` on a user name and a password; `none` is -1. -/
  userAuth : List UInt8 → List UInt8 → Option UInt16
  /-- `vs_create_avatar_node`; `none` is -1. -/
  createAvatarNode : UInt16 → Option UInt32
  /-- `vs_user_find`. -/
  userFind : UInt16 → Option ℕ
  /-- The `TOKEN_SIZE` random characters. -/
  randomToken : List UInt8
  ded : List UInt8
  wsPort : UInt16
  securityProtocol : UInt16
  /-- The port that is taken from the list of ports. -/
  port : UInt16
  peerAddr : VNetworkAddress
  /-- `pthread_create` is successful. -/
  threadCreated : Bool
  /-- What stands in memory behind the copy of a proposed URL. -/
  beyond : List UInt8

/-- What `vs_handle_handshake` and the functions it calls do: the session, whether
the connection goes on, the system commands that are sent back (`none` when the
buffer is sent back as it is), whether the UDP thread was started, and the user and
avatar that were set by an authentication. -/
structure HandshakeResult where
  session : VSession
  goesOn : Bool
  reply : Option (List MessageCmd)
  udpStarted : Bool
  authenticated : Option (UInt16 × Option ℕ × UInt32)

/-- The connection is closed. -/
def HandshakeResult.refuse (session : VSession) : HandshakeResult := ⟨session, false, none, false, none⟩

/-! ## RESPOND_METHODS -/

/-- A negotiate command with strings, as it is added to a message. -/
def negotiateStrings (id : NegotiateId) (feature : StringFtr) (values : List (List UInt8)) :
    MessageCmd :=
  .sys (.negotiate (vAddNegotiateCmd id (.string8 feature values)))

/-- The client proposes its name or its version; only the first value is used. -/
def proposeClient (session : VSession) : MessageCmd → VSession
  | .sys (.negotiate ⟨.changeL, .string8 .clientName (name :: _)⟩) =>
      { session with clientName := some (cString name) }
  | .sys (.negotiate ⟨.changeL, .string8 .clientVersion (version :: _)⟩) =>
      { session with clientVersion := some (cString version) }
  | _ => session

/-- The client proposed its name. -/
def clientNameProposed (cmds : List MessageCmd) : Bool :=
  cmds.any fun
    | .sys (.negotiate ⟨.changeL, .string8 .clientName (_ :: _)⟩) => true
    | _ => false

/-- The client proposed its version. -/
def clientVersionProposed (cmds : List MessageCmd) : Bool :=
  cmds.any fun
    | .sys (.negotiate ⟨.changeL, .string8 .clientVersion (_ :: _)⟩) => true
    | _ => false

/-- The confirmations of name and version; a version without a name is not
allowed. -/
def confirmClient (session : VSession) (cmds : List MessageCmd) : List MessageCmd :=
  (if clientNameProposed cmds then
    [negotiateStrings .confirmL .clientName session.clientName.toList] else []) ++
  (if clientVersionProposed cmds then
    if clientNameProposed cmds then
      [negotiateStrings .confirmL .clientVersion session.clientVersion.toList]
    else [negotiateStrings .confirmL .clientVersion []]
  else [])

/-- The message asks for the supported methods. -/
def asksForMethods (cmds : List MessageCmd) : Bool :=
  cmds.any fun
    | .userAuthRequest _ methodType _ => methodType = uaMethodNone
    | _ => false

/-- `vs_RESPOND_methods_loop`. -/
def vsRespondMethodsLoop (session : VSession) (cmds : List MessageCmd) : HandshakeResult :=
  let session := cmds.foldl proposeClient session
  if asksForMethods cmds then
    ⟨session, true, some (.userAuthFailure [uaMethodPassword] :: confirmClient session cmds), false,
      none⟩
  else .refuse session

/-! ## RESPOND_USRAUTH -/

/-- The first request with a password. -/
def passwordRequest (cmds : List MessageCmd) : Option (List UInt8 × List UInt8) :=
  cmds.findSome? fun
    | .userAuthRequest username methodType data =>
        if methodType = uaMethodPassword then some (cString username, cString data) else none
    | _ => none

/-- `vs_RESPOND_userauth_loop`.  It is also successful when the authentication
fails. -/
def vsRespondUserauthLoop (env : ServerEnv) (session : VSession) (cmds : List MessageCmd) :
    HandshakeResult :=
  match passwordRequest cmds with
  | none => .refuse session
  | some (username, data) =>
      match env.userAuth username data with
      | none => ⟨session, true, some [.userAuthFailure []], false, none⟩
      | some userId =>
          match env.createAvatarNode userId with
          | none => .refuse session
          | some avatarId =>
              let session := { session with
                userId := userId
                avatarId := avatarId
                user := env.userFind userId
                peerToken := some (cString env.randomToken)
                ded := some env.ded }
              ⟨session, true,
                some [.userAuthSuccess userId avatarId,
                  negotiateStrings .changeR .token [cString env.randomToken],
                  negotiateStrings .changeL .ded [env.ded]],
                false, some (userId, env.userFind userId, avatarId)⟩

/-! ## NEGOTIATE_TOKEN_DED -/

/-- The local variables of `vs_NEGOTIATE_token_ded_loop`. -/
structure TokenDed where
  session : VSession
  url : VURL
  hostUrlProposed : Bool
  hostTokenProposed : Bool
  peerTokenConfirmed : Bool
  dedConfirmed : Bool

/-- One pass of the loop over the received commands. -/
def tokenDedCmd (env : ServerEnv) (t : TokenDed) : MessageCmd → TokenDed
  | .sys (.negotiate ⟨.changeR, .string8 .hostUrl (url :: _)⟩) =>
      let (ok, parsed) := vUrlParse (cString url) env.beyond t.url
      { t with
        session := { t.session with hostUrl := some (cString url) }
        url := parsed
        hostUrlProposed := ok }
  | .sys (.negotiate ⟨.changeR, .string8 .token (token :: _)⟩) =>
      { t with
        session := { t.session with hostToken := some (cString token) }
        hostTokenProposed := true }
  | .sys (.negotiate ⟨.confirmR, .string8 .token [token]⟩) =>
      if t.session.peerToken = some (cString token) then { t with peerTokenConfirmed := true } else t
  | .sys (.negotiate ⟨.confirmL, .string8 .ded [ded]⟩) =>
      if t.session.ded = some (cString ded) then { t with dedConfirmed := true } else t
  | cmd => { t with session := proposeClient t.session cmd }

/-- The flag is set. -/
def hasFlag (flags flag : UInt16) : Bool := flags &&& flag != 0

/-- The URL the server proposes for the data connection. -/
def hostUrlText (env : ServerEnv) (flags : UInt16) (url : VURL) : List UInt8 :=
  let transProto :=
    if hasFlag flags vrsTpUdp then ascii "udp"
    else if hasFlag flags vrsTpTcp then ascii "tcp"
    else []
  let secProto :=
    if url.securityProtocol = vrsSecDataNone ∨ ¬ hasFlag env.securityProtocol vrsSecDataTls then
      ascii "none"
    else if url.securityProtocol = vrsSecDataTls then
      if hasFlag flags vrsTpUdp then ascii "dtls"
      else if hasFlag flags vrsTpTcp then ascii "tls"
      else []
    else ascii "none"
  let scheme :=
    if hasFlag flags vrsTpWebsocket ∧ url.securityProtocol = vrsSecDataNone then ascii "ws"
    else if hasFlag flags vrsTpWebsocket ∧ url.securityProtocol = vrsSecDataTls then ascii "wss"
    else ascii "verse-" ++ transProto ++ ascii "-" ++ secProto
  -- `sprintf` prints a pointer that is `NULL` in this way
  let node := url.node.getD (ascii "(null)")
  let host := if url.ipv6 then ascii "[" ++ node ++ ascii "]" else node
  scheme ++ ascii "://" ++ host ++ ascii ":" ++
    (Nat.toDigits 10 env.port.toNat).map fun c => UInt8.ofNat c.toNat

/-- The loop over the received commands. -/
def tokenDedCmds (env : ServerEnv) (session : VSession) (cmds : List MessageCmd) : TokenDed :=
  cmds.foldl (tokenDedCmd env) ⟨session, vUrlInit, false, false, false, false⟩

/-- All that is needed was received. -/
def TokenDed.complete (t : TokenDed) : Bool :=
  t.hostUrlProposed && t.hostTokenProposed && t.peerTokenConfirmed && t.dedConfirmed

/-- The proposed URL is the one of the WebSocket connection itself. -/
def TokenDed.urlConfirmed (env : ServerEnv) (t : TokenDed) : Bool :=
  t.url.transportProtocol = vrsTpWebsocket &&
    sscanfUnsigned (t.url.service.getD []) = env.wsPort.toNat

/-- The flags of the session after the settings of the data connection were
copied to it; TCP data connections are always secured. -/
def TokenDed.newFlags (t : TokenDed) : UInt16 :=
  let security :=
    if t.url.transportProtocol = vrsTpTcp then vrsSecDataTls else t.url.securityProtocol
  t.session.flags ||| security ||| t.url.transportProtocol

/-- `vs_NEGOTIATE_token_ded_loop` and what `vs_handle_handshake` does with its
result: a confirmed URL opens the stream, with another one the new host is
negotiated. -/
def vsNegotiateTokenDedLoop (env : ServerEnv) (session : VSession) (cmds : List MessageCmd) :
    HandshakeResult :=
  let t := tokenDedCmds env session cmds
  if t.complete then
    let session := { t.session with peerAddress := env.peerAddr }
    let confirmed (session : VSession) :=
      negotiateStrings .confirmR .token session.hostToken.toList :: confirmClient session cmds
    if t.urlConfirmed env then
      ⟨{ session with hostState := .streamOpen }, true,
        some (negotiateStrings .confirmR .hostUrl session.hostUrl.toList :: confirmed session),
        false, none⟩
    else
      let flags := t.newFlags
      let url :=
        if t.url.transportProtocol = vrsTpTcp then { t.url with securityProtocol := vrsSecDataTls }
        else t.url
      let session := { session with flags := flags }
      if hasFlag flags vrsTpUdp && !env.threadCreated then .refuse session
      else
        let hostUrl := hostUrlText env flags url
        let session := { session with hostUrl := some hostUrl, hostState := .negotiateNewhost }
        ⟨session, true,
          some (negotiateStrings .confirmR .hostUrl [] ::
            negotiateStrings .changeL .hostUrl [hostUrl] :: confirmed session),
          hasFlag flags vrsTpUdp, none⟩
  else .refuse t.session

/-! ## NEGOTIATE_NEWHOST -/

/-- `vs_NEGOTIATE_newhost_loop`: the client confirms the URL. -/
def vsNegotiateNewhostLoop (session : VSession) (cmds : List MessageCmd) : Bool :=
  cmds.any fun
    | .sys (.negotiate ⟨.confirmL, .string8 .hostUrl [url]⟩) =>
        session.hostUrl = some (cString url)
    | _ => false

/-! ## All states -/

/-- `MAX_USER_AUTH_ATTEMPTS`. -/
def maxUserAuthAttempts : ℕ := 1

/-- `vs_handle_handshake`, without the call of `vs_STREAM_OPEN_tcp_loop`, in which a
TCP connection stays until it ends. -/
def vsHandleHandshake (env : ServerEnv) (session : VSession) (buf : Mem) (bufSize : ℕ) :
    HandshakeResult :=
  if bufSize < verseMessageHeaderSize then .refuse session
  else
    let cmds := (receivedSysCmds buf bufSize).2
    match session.hostState with
    | .respondMethods =>
        let r := vsRespondMethodsLoop session cmds
        if r.goesOn then { r with session := { r.session with hostState := .respondUsrauth } } else r
    | .respondUsrauth =>
        let r := vsRespondUserauthLoop env session cmds
        if r.goesOn then { r with session := { r.session with hostState := .negotiateTokenDed } }
        else
          let usrAuthAtt := r.session.usrAuthAtt + 1
          { r with
            session := { r.session with usrAuthAtt := usrAuthAtt }
            goesOn := decide (usrAuthAtt < maxUserAuthAttempts) }
    | .negotiateTokenDed => vsNegotiateTokenDedLoop env session cmds
    | .negotiateNewhost =>
        if vsNegotiateNewhostLoop session cmds then
          if hasFlag session.flags vrsTpUdp then .refuse session
          else if hasFlag session.flags vrsTpTcp ∨ hasFlag session.flags vrsTpWebsocket then
            ⟨{ session with hostState := .streamOpen }, true, none, false, none⟩
          else ⟨session, true, none, false, none⟩
        else .refuse session
    | _ => ⟨session, true, none, false, none⟩

end Verse
