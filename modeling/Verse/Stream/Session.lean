import Verse.Queues.InQueue
import Verse.Resend.PacketHistory
import Verse.Stream.Messages

/-!
# Sessions and their stream connection

`v_session.c` and `v_stream.c`.  In the state STREAM_OPEN a message carries node
commands.  `v_STREAM_handle_messages` takes what one call of `read` gave for one
message, and `v_STREAM_pack_message` makes a message from the commands in the
outgoing queue.

The queues of a session are given by the commands they hold, in order; where a
command stands in memory plays no role here.  How many commands of a priority go
into a message depends on the space in the buffer of the socket, on the weights of
the priorities and on the sizes of the commands; it is an argument.
-/

namespace Verse

open Lib

/-! ## Sessions -/

/-- The states of the stream connection of the server. -/
inductive TcpServerState where
  | listen
  | respondMethods
  | respondUsrauth
  | negotiateTokenDed
  | negotiateNewhost
  | streamOpen
  | closing
  | closed
  deriving DecidableEq, Repr

/-- `VNetworkAddress`: the version of IP, the port and the bytes of the address. -/
structure VNetworkAddress where
  ipv6 : Bool
  port : UInt16
  addr : List UInt8
  deriving DecidableEq, Repr

/-- `VSession`, with `host_state` of its stream connection.  `user` is the address
of the user, and a `real32` is given by its bits. -/
structure VSession where
  hostState : TcpServerState
  peerAddress : VNetworkAddress
  userId : UInt16
  user : Option ℕ
  avatarId : UInt32
  ded : Option (List UInt8)
  flags : UInt16
  usrAuthAtt : ℕ
  hostUrl : Option (List UInt8)
  peerToken : Option (List UInt8)
  hostToken : Option (List UInt8)
  outQueue : ℕ → List CmdPtr
  inQueue : List CmdPtr
  fpsHost : UInt32
  fpsPeer : UInt32
  tmpFlags : UInt8
  clientName : Option (List UInt8)
  clientVersion : Option (List UInt8)

/-- `DEFAULT_FPS`, the bits of 60.0. -/
def defaultFps : UInt32 := 0x42700000

/-- `v_init_session`, after `vs_init_stream_conn`. -/
def vInitSession : VSession where
  hostState := .listen
  peerAddress := ⟨false, 0, []⟩
  userId := 0
  user := none
  avatarId := 0xFFFFFFFF
  ded := none
  flags := 0
  usrAuthAtt := 0
  hostUrl := none
  peerToken := none
  hostToken := none
  outQueue _ := []
  inQueue := []
  fpsHost := defaultFps
  fpsPeer := defaultFps
  tmpFlags := 0
  clientName := none
  clientVersion := none

/-- A command in a queue. -/
def ptr (cmd : GenericCmd) : CmdPtr := ⟨0, cmd⟩

/-! ## Receiving -/

/-- `SYS_CMD_NEGOTIATE_FPS`. -/
def sysCmdNegotiateFps : UInt8 := 1

/-- What the loop over the system commands does with one of them. -/
def negotiateFps (session : VSession) : MessageCmd → VSession
  | .sys (.negotiate ⟨.changeL, .fps (fps :: _)⟩) =>
      { session with
        fpsHost := fps
        fpsPeer := fps
        tmpFlags := session.tmpFlags ||| sysCmdNegotiateFps }
  | .sys (.negotiate ⟨.confirmL, .fps (fps :: _)⟩) => { session with fpsPeer := fps }
  | _ => session

/-- The commands are pushed to the incoming queue one after the other. -/
def pushAll (l : List CmdPtr) (cmds : List GenericCmd) : Option (List CmdPtr) :=
  cmds.foldlM (fun l cmd => listPush l (ptr cmd)) l

/-- The system commands and the node commands of the bytes that were read;
`none` when they are fewer than a header, or when `v_cmd_unpack` does not return. -/
def receivedMessage (buf : Mem) (bufSize : ℕ) : Option (List MessageCmd × List GenericCmd) :=
  if bufSize < verseMessageHeaderSize then none
  else
    let (pos, sysCmds) := receivedSysCmds buf bufSize
    (vCmdUnpack (buf.shift pos) (UInt16.ofNat (bufSize - pos))).map fun (_, cmds) => (sysCmds, cmds)

/-- `v_STREAM_handle_messages`; `some none` stands for 0. -/
def vStreamHandleMessages (session : VSession) (buf : Mem) (bufSize : ℕ) :
    Option (Option VSession) :=
  if bufSize < verseMessageHeaderSize then some none
  else
    match receivedMessage buf bufSize with
    | none => none
    | some (sysCmds, cmds) =>
        let session := sysCmds.foldl negotiateFps session
        (pushAll session.inQueue cmds).map fun inQueue => some { session with inQueue := inQueue }

/-! ## Sending -/

/-- `==` on two `real32`. -/
def real32Eq (a b : UInt32) : Bool :=
  let abs (x : UInt32) := x &&& 0x7FFFFFFF
  abs a ≤ 0x7F800000 && abs b ≤ 0x7F800000 && (a = b || (abs a = 0 && abs b = 0))

/-- What is packed to a message. -/
structure StreamMessage where
  sysCmds : List MessageCmd
  cmds : List GenericCmd
  deriving DecidableEq, Repr

/-- The negotiate command for FPS, and the flag that asks for it. -/
def negotiateFpsCmds (session : VSession) : List MessageCmd × UInt8 :=
  if !real32Eq session.fpsHost session.fpsPeer then
    ([.sys (.negotiate (vAddNegotiateCmd .changeL (.fps [session.fpsHost])))], session.tmpFlags)
  else if session.tmpFlags &&& sysCmdNegotiateFps ≠ 0 then
    ([.sys (.negotiate (vAddNegotiateCmd .confirmL (.fps [session.fpsPeer])))],
      session.tmpFlags &&& ~~~ sysCmdNegotiateFps)
  else ([], session.tmpFlags)

/-- The commands that are popped, from the highest priority to the lowest;
`takes prio` of them fit at priority `prio`. -/
def poppedCmds (outQueue : ℕ → List CmdPtr) (takes : ℕ → ℕ) : List CmdPtr :=
  (List.range 256).reverse.flatMap fun prio => (outQueue prio).take (takes prio)

/-- A fake command is not packed: it closes the connection or changes FPS. -/
def takeFakeCmd (session : VSession) (cmd : CmdPtr) : VSession :=
  if cmd.id = 1 then { session with hostState := .closing }
  else if cmd.id = 3 then
    { session with fpsHost := UInt32.ofNat (leVal (slice cmd.cmd.data 3 4)) }
  else session

/-- The data thread is told by a fake command that the peer will know of a created or
destroyed entity. -/
def pushFakeAck (session : VSession) (cmd : CmdPtr) : Option VSession :=
  (pushAll session.inQueue (vCmdFakeAck cmd.cmd).toList).map fun inQueue =>
    { session with inQueue := inQueue }

/-- What is done with one popped command besides packing it. -/
def sendCmd (session : VSession) (cmd : CmdPtr) : Option VSession :=
  pushFakeAck (takeFakeCmd session cmd) cmd

/-- `v_STREAM_pack_message`: the session, and the message when there is one. -/
def vStreamPackMessage (session : VSession) (takes : ℕ → ℕ) :
    Option (VSession × Option StreamMessage) :=
  if (∀ prio < 256, session.outQueue prio = []) ∧ session.tmpFlags &&& sysCmdNegotiateFps = 0 then
    some (session, none)
  else
    let (sysCmds, tmpFlags) := negotiateFpsCmds session
    let popped := poppedCmds session.outQueue takes
    let session := { session with
      tmpFlags := tmpFlags
      outQueue := fun prio => (session.outQueue prio).drop (takes prio) }
    (popped.foldlM sendCmd session).map fun session =>
      (session, some ⟨sysCmds, (popped.map CmdPtr.cmd).filter fun cmd => minCmdId ≤ cmd.id.toNat⟩)

/-- The bytes of a message: the header, the system commands, and every node command
by itself. -/
def StreamMessage.pack (m : StreamMessage) : Option (List UInt8) := do
  let sysBytes ← vPackStreamSystemCommands m.sysCmds
  let cmdBytes ← m.cmds.mapM fun cmd => vCmdPack cmd (vCmdSize cmd) 0
  let body := sysBytes ++ cmdBytes.flatten
  return vPackMessageHeader ⟨1, UInt16.ofNat (verseMessageHeaderSize + body.length)⟩ ++ body

end Verse
