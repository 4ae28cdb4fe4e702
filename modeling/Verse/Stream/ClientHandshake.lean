import Verse.Server.Handshake

/-!
# The handshake of a client over its stream connection

`vc_tcp_connect.c`.  `vc_main_stream_loop` goes through the states of the stream connection one
after the other.  In each of the first three it sends a message and waits for one answer; in the
first two it waits for the application before that, which has to give a user name and a
password.  With the URL of the data connection that the server proposed it either goes on over
the stream, or it starts the UDP thread, which confirms the URL when it got through, and does
not when it did not.

The loops are cut where they wait: a `Request` is what a loop does up to there, and an `Answer`
what it does with the message that was received.  What is left out is the time: a client that
waited too long does nothing any more.
-/

namespace Verse

open Lib

/-! ## The session -/

/-- The states of the stream connection of the client. -/
inductive TcpClientState where
  | usrauthNone
  | usrauthData
  | negotiateTokenDed
  | negotiateNewhost
  | streamOpen
  | closing
  deriving DecidableEq, Repr

/-- `VSession` and `VUserCredentials`, as far as the handshake of the client has them.  `waits`
is not in the source: the message of the state was sent. -/
structure VClient where
  hostState : TcpClientState
  waits : Bool
  username : List UInt8
  methods : List UInt8
  userId : UInt16
  avatarId : UInt32
  flags : UInt16
  hostUrl : Option (List UInt8)
  hostToken : Option (List UInt8)
  peerToken : Option (List UInt8)
  ded : Option (List UInt8)

/-- What the handshake takes from the client context and from the system: the name and the
version of the client, the address of the server as `inet_ntop` prints it, and the `TOKEN_SIZE`
random characters. -/
structure ClientEnv where
  clientName : Option (List UInt8)
  clientVersion : Option (List UInt8)
  ipv6 : Bool
  peerAddr : List UInt8
  randomToken : List UInt8

/-- The transport protocol in `vrs_send_connect_request`; `none` is `VRS_FAILURE`. -/
def connectFlags (flags : UInt16) : Option UInt16 :=
  if hasFlag flags vrsSecDataNone ∧ hasFlag flags vrsSecDataTls then none
  else if hasFlag flags vrsTpUdp ∧ hasFlag flags vrsTpTcp then none
  else if ¬ hasFlag flags vrsTpUdp ∧ ¬ hasFlag flags vrsTpTcp then some (flags ||| vrsTpUdp)
  else some flags

/-- The session that `vc_main_stream_loop` begins with. -/
def VClient.init (flags : UInt16) : VClient where
  hostState := .usrauthNone
  waits := false
  username := []
  methods := []
  userId := 0
  avatarId := 0xFFFFFFFF
  flags := flags
  hostUrl := none
  hostToken := none
  peerToken := none
  ded := none

/-- What `strncpy` leaves in an array of `n + 1` zeros. -/
def strncpy (str : List UInt8) (n : ℕ) : List UInt8 := (cString str).take n

namespace VClient

variable (env : ClientEnv) (client : VClient)

/-- The state after an error. -/
def fail : VClient := { client with hostState := .closing, waits := false }

/-! ## USRAUTH_none -/

/-- The name of the client, and the version, which is only sent behind a name. -/
def proposals : List MessageCmd :=
  match env.clientName with
  | none => []
  | some name =>
      negotiateStrings .changeL .clientName [name] ::
        env.clientVersion.toList.map fun version => negotiateStrings .changeL .clientVersion [version]

/-- `vc_USRAUTH_none_loop`, up to the answer: the application gave the user name. -/
def vcUsrauthNoneRequest (username : List UInt8) : VClient × List MessageCmd :=
  ({ client with waits := true, username := cString username },
    .userAuthRequest (strncpy username vrsMaxUsernameLength) uaMethodNone [] :: proposals env)

/-- The loop over the received commands of `vc_USRAUTH_none_loop`, and what the main loop does
with its result.  The first answer to the request counts. -/
def vcUsrauthNoneAnswer : List MessageCmd → VClient
  | [] => client.fail
  | .userAuthFailure [] :: _ => client.fail
  | .userAuthFailure methods :: _ =>
      { client with hostState := .usrauthData, waits := false, methods := methods }
  | .userAuthSuccess userId avatarId :: _ =>
      { client with
        hostState := .negotiateTokenDed
        waits := false
        userId := userId
        avatarId := avatarId }
  | _ :: rest => vcUsrauthNoneAnswer rest

/-! ## USRAUTH_data -/

/-- `vc_USRAUTH_data_loop`, up to the answer: the application gave the password.  The user name
it gives along with it is not used. -/
def vcUsrauthDataRequest (data : List UInt8) : VClient × List MessageCmd :=
  ({ client with waits := true },
    [.userAuthRequest (strncpy client.username vrsMaxUsernameLength)
      (client.methods.headD uaMethodReserved) (strncpy data vrsMaxDataLength)])

/-- The string of the first value of a negotiate command.  It is read even when there is none;
then `stale` is what the array holds from a message before. -/
def firstValue (stale : List UInt8) (values : List (List UInt8)) : List UInt8 :=
  cString ((values.headD stale).take vrsString8MaxSize)

/-- One pass of the loop over the received commands of `vc_USRAUTH_data_loop`, with `auth_succ`;
`none` is the return in the middle of it. -/
def usrauthDataCmd (stale : List UInt8) (t : VClient × Bool) : MessageCmd → Option (VClient × Bool)
  | .userAuthFailure _ => none
  | .userAuthSuccess userId avatarId =>
      some ({ t.1 with userId := userId, avatarId := avatarId }, true)
  | .sys (.negotiate ⟨.changeR, .string8 .token values⟩) =>
      some ({ t.1 with hostToken := some (firstValue stale values) }, t.2)
  | .sys (.negotiate ⟨.changeL, .string8 .ded values⟩) =>
      some ({ t.1 with ded := some (firstValue stale values) }, t.2)
  | _ => some t

/-- What `vc_USRAUTH_data_loop` does with the answer. -/
def vcUsrauthDataAnswer (stale : List UInt8) (cmds : List MessageCmd) : VClient :=
  match cmds.foldlM (usrauthDataCmd stale) (client, false) with
  | some (client, true) => { client with hostState := .negotiateTokenDed, waits := false }
  | _ => client.fail

/-! ## NEGOTIATE_token_ded -/

/-- The scheme of the URL the client proposes. -/
def proposedScheme : List UInt8 :=
  if hasFlag client.flags vrsSecDataNone then
    if hasFlag client.flags vrsTpUdp then ascii "verse-udp-none"
    else if hasFlag client.flags vrsTpTcp then ascii "verse-tcp-none"
    else ascii "verse-udp-none"
  else if hasFlag client.flags vrsSecDataTls then
    if hasFlag client.flags vrsTpUdp then ascii "verse-udp-dtls"
    else if hasFlag client.flags vrsTpTcp then ascii "verse-tcp-tls"
    else ascii "verse-udp-dtls"
  else
    if hasFlag client.flags vrsTpTcp then ascii "verse-tcp-tls"
    else if hasFlag client.flags vrsTpUdp then ascii "verse-udp-dtls"
    else ascii "verse-udp-dtls"

/-- The URL the client proposes: any port at the address of the server. -/
def proposedUrl : List UInt8 :=
  client.proposedScheme ++ ascii "://" ++
    (if env.ipv6 then ascii "[" ++ env.peerAddr ++ ascii "]" else env.peerAddr) ++ ascii ":*"

/-- `vc_NEGOTIATE_token_dtd_loop`, up to the answer. -/
def vcNegotiateTokenDtdRequest : VClient × List MessageCmd :=
  ({ client with
      waits := true
      hostUrl := some (client.proposedUrl env)
      peerToken := some (cString env.randomToken) },
    [negotiateStrings .changeR .hostUrl [client.proposedUrl env],
      negotiateStrings .confirmR .token client.hostToken.toList,
      negotiateStrings .changeR .token [cString env.randomToken],
      negotiateStrings .confirmL .ded client.ded.toList])

/-- The local variables of `vc_NEGOTIATE_token_dtd_loop`. -/
structure TokenDtd where
  client : VClient
  confirmedToken : Bool
  proposedUrl : Bool

/-- One pass of the loop over the received commands. -/
def tokenDtdCmd (t : TokenDtd) : MessageCmd → TokenDtd
  | .sys (.negotiate ⟨.confirmR, .string8 .token (token :: _)⟩) =>
      if t.client.peerToken = some (cString token) then { t with confirmedToken := true } else t
  | .sys (.negotiate ⟨.changeL, .string8 .hostUrl (url :: _)⟩) =>
      { t with client := { t.client with hostUrl := some (cString url) }, proposedUrl := true }
  | _ => t

/-- What `vc_NEGOTIATE_token_dtd_loop` does with the answer. -/
def vcNegotiateTokenDtdAnswer (cmds : List MessageCmd) : VClient :=
  let t := cmds.foldl tokenDtdCmd ⟨client, false, false⟩
  if t.confirmedToken ∧ t.proposedUrl then
    { t.client with hostState := .negotiateNewhost, waits := false }
  else t.client.fail

/-! ## NEGOTIATE_newhost -/

/-- `vc_NEGOTIATE_newhost`. -/
def vcNegotiateNewhost (hostUrl : Option (List UInt8)) : List MessageCmd :=
  [negotiateStrings .confirmL .hostUrl hostUrl.toList]

/-- The data connection: the stream goes on as such, or the UDP thread confirms the URL when it
is `established`, and the stream connection is closed.  When it is not, nobody sets the state,
for which `vc_main_stream_loop` waits then. -/
def newhost (established : Bool) : VClient × Option (List MessageCmd) :=
  if hasFlag client.flags vrsTpUdp then
    if established then (client.fail, some (vcNegotiateNewhost client.hostUrl))
    else ({ client with waits := true }, some (vcNegotiateNewhost none))
  else if hasFlag client.flags vrsTpTcp then
    ({ client with hostState := .streamOpen }, some (vcNegotiateNewhost client.hostUrl))
  else (client.fail, none)

/-! ## All states -/

/-- The handling of a message that was read. -/
def answer (stale : List UInt8) (buf : Mem) (bufSize : ℕ) : VClient :=
  if bufSize < verseMessageHeaderSize then client.fail
  else
    let cmds := (receivedSysCmds buf bufSize).2
    match client.hostState with
    | .usrauthNone => client.vcUsrauthNoneAnswer cmds
    | .usrauthData => client.vcUsrauthDataAnswer stale cmds
    | .negotiateTokenDed => client.vcNegotiateTokenDtdAnswer cmds
    | _ => client

end VClient

/-- What happens to a client. -/
inductive ClientEvent where
  /-- The application gives the user name. -/
  | username (username : List UInt8)
  /-- The application gives the password. -/
  | password (data : List UInt8)
  /-- The application terminates the connection while the client waits for it. -/
  | terminate
  /-- The token is negotiated. -/
  | negotiate
  /-- The data connection. -/
  | newhost (established : Bool)
  deriving DecidableEq, Repr

/-- One event, and the message that is sent. -/
def VClient.step (env : ClientEnv) (client : VClient) :
    ClientEvent → Option (VClient × Option (List MessageCmd))
  | .username username =>
      if client.hostState = .usrauthNone ∧ ¬ client.waits then
        some ((client.vcUsrauthNoneRequest env username).map id some)
      else none
  | .password data =>
      if client.hostState = .usrauthData ∧ ¬ client.waits then
        some ((client.vcUsrauthDataRequest data).map id some)
      else none
  | .terminate =>
      if (client.hostState = .usrauthNone ∨ client.hostState = .usrauthData) ∧ ¬ client.waits then
        some (client.fail, none)
      else none
  | .negotiate =>
      if client.hostState = .negotiateTokenDed ∧ ¬ client.waits then
        some ((client.vcNegotiateTokenDtdRequest env).map id some)
      else none
  | .newhost established =>
      if client.hostState = .negotiateNewhost ∧ ¬ client.waits then some (client.newhost established)
      else none

end Verse
