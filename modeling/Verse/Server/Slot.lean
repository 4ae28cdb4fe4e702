import Verse.Lib.Run
import Verse.Queues.OutQueueInv
import Verse.Server.Handshake

/-!
# Session slots

`vs_tcp_connect.c`, `vs_websocket.c`, the end of `vs_udp_connect.c` and
`vs_data.c`.  The sessions of a server are allocated once.  A connection is
accepted on a session in the state LISTEN; when it ends, its thread cleans the
session and sets it to LISTEN again.  There are three threads that work on a
session: the thread of the stream connection, the UDP thread it may have started,
and the data thread.

A `SlotEvent` is something that happens in one of these threads, and an event that
cannot happen in a state has no step.  What the UDP connection itself does is left
out here, but for what it does to the session: it pushes received commands to the
incoming queue, takes commands from the outgoing queue to its history of sent
packets, and puts them back when they are lost.  The server only sends node
commands, without limits on the size of the queue.
-/

namespace Verse

open Lib

/-! ## The outgoing queue, by its commands -/

/-- `v_out_queue_push_tail` and `v_out_queue_push_head` on the commands of the
priorities.  A newer command replaces an older one, and a command that is put back
does not. -/
def outListPush (c : ℕ → List CmdPtr) (head : Bool) (prio : ℕ) (cmd : CmdPtr) :
    Option (ℕ → List CmdPtr) :=
  match vCmdQueueCreate cmd.id true with
  | none => none
  | some q =>
      if q.Keyed then
        let twin :=
          if q.removeHashDups then (List.range 256).find? fun p => (c p).any (sameAddress q cmd)
          else none
        match twin with
        | none => some (Function.update c prio (place head cmd (c prio)))
        | some p =>
            if head then some c
            else if p = prio then
              some (Function.update c prio (replaceFirst (sameAddress q cmd) cmd (c prio)))
            else
              some (Function.update (Function.update c p ((c p).eraseP (sameAddress q cmd))) prio
                (c prio ++ [cmd]))
      else none

/-! ## The slot -/

/-- The states of the datagram connection of the server, as far as the session is
concerned. -/
inductive UdpServerState where
  | closed
  | handshake
  | open
  deriving DecidableEq, Repr

/-- The user of an authentication: `user_id`, `user` and `avatar_id`. -/
abbrev Identity := UInt16 × Option ℕ × UInt32

/-- A session with its connections.  `history` are the commands in the history of
sent packets of the datagram connection, with their priorities.

The last four fields are not in the source: `opened` says that commands of this
connection could be handled, so that the server may send commands to it; `auth` is
the user `vs_user_auth` returned during this connection; `udpStarted` says that
this connection started its UDP thread; and `tokenLeft` that `peer_token` was
already set when the connection was accepted and was not set since. -/
structure Slot where
  session : VSession
  websocket : Bool
  udpRunning : Bool
  udpState : UdpServerState
  history : List (ℕ × CmdPtr)
  opened : Bool
  auth : Option Identity
  udpStarted : Bool
  tokenLeft : Bool

/-- A slot that was not used yet. -/
def Slot.init : Slot where
  session := vInitSession
  websocket := false
  udpRunning := false
  udpState := .closed
  history := []
  opened := false
  auth := none
  udpStarted := false
  tokenLeft := false

/-- What happens to a session. -/
inductive SlotEvent where
  /-- `vs_new_stream_conn` accepts a connection, and the loop is entered. -/
  | accept (websocket : Bool)
  /-- A message was read. -/
  | message (env : ServerEnv) (buf : Mem) (bufSize : ℕ)
  /-- `v_STREAM_pack_message` is called. -/
  | pack (takes : ℕ → ℕ)
  /-- The WebSocket client sends a control message. -/
  | closeFrame
  /-- The WebSocket loop begins to close the connection: the handshake timed out, or
  the server is going to stop. -/
  | stop
  /-- The loop is left, for whatever reason. -/
  | hangUp
  /-- The end of the thread; `avatarFound` says whether there is an avatar node. -/
  | tearDown (avatarFound : Bool)
  /-- The datagram connection is open. -/
  | udpOpen
  /-- A packet was received. -/
  | udpReceive (sysCmds : List MessageCmd) (cmds : List GenericCmd)
  /-- A packet is sent. -/
  | udpSend (takes : ℕ → ℕ)
  /-- A sent command is known to be received. -/
  | udpAck (i : ℕ)
  /-- A sent command is known to be lost. -/
  | udpNak (i : ℕ)
  /-- The end of the UDP thread. -/
  | udpEnd
  /-- A command for this client, by the data thread. -/
  | push (prio : UInt8) (cmd : GenericCmd)
  /-- The data thread handles the received commands. -/
  | handle

/-- What can be seen of a step. -/
inductive SlotOutput where
  | nothing
  | reply (cmds : Option (List MessageCmd))
  | sent (sysCmds : List MessageCmd) (cmds : List GenericCmd)
  | handled (who : Identity) (cmds : List CmdPtr)
  deriving DecidableEq, Repr

/-- The user of the session. -/
def VSession.identity (session : VSession) : Identity :=
  (session.userId, session.user, session.avatarId)

/-- The slot at the begin of a connection. -/
def Slot.accepted (slot : Slot) (websocket : Bool) : Slot :=
  { slot with
    session := { slot.session with
      hostState := .respondMethods
      flags := if websocket then slot.session.flags ||| vrsTpWebsocket else slot.session.flags }
    websocket := websocket
    auth := none
    udpStarted := false
    tokenLeft := slot.session.peerToken.isSome }

/-- The state after the loop of the connection met an error. -/
def Slot.failState (slot : Slot) : TcpServerState := if slot.websocket then .closing else .closed

/-- The messages in the state STREAM_OPEN are handled as such: in the WebSocket loop,
or in `vs_STREAM_OPEN_tcp_loop`, which is entered when TCP was negotiated. -/
def Slot.served (slot : Slot) : Bool := slot.websocket || hasFlag slot.session.flags vrsTpTcp

/-- A message in the state STREAM_OPEN. -/
def Slot.streamMessage (slot : Slot) (buf : Mem) (bufSize : ℕ) : Option (Slot × SlotOutput) :=
  match vStreamHandleMessages slot.session buf bufSize with
  | none => none
  | some none =>
      some ({ slot with session := { slot.session with hostState := slot.failState } }, .nothing)
  | some (some session) => some ({ slot with session := session }, .nothing)

/-- A message during the handshake.  When the client does not confirm the new host,
the UDP thread is cancelled. -/
def Slot.handshakeMessage (slot : Slot) (env : ServerEnv) (buf : Mem) (bufSize : ℕ) :
    Slot × SlotOutput :=
  let r := vsHandleHandshake env slot.session buf bufSize
  if r.goesOn then
    ({ slot with
        session := r.session
        udpRunning := slot.udpRunning || r.udpStarted
        udpState := if r.udpStarted then .handshake else slot.udpState
        opened := slot.opened || decide (r.session.hostState = .streamOpen)
        auth := if r.authenticated = none then slot.auth else r.authenticated
        udpStarted := slot.udpStarted || r.udpStarted
        tokenLeft := slot.tokenLeft && decide (r.authenticated = none) }, .reply r.reply)
  else
    let cancelled := slot.session.hostState = .negotiateNewhost ∧
      verseMessageHeaderSize ≤ bufSize ∧
      ¬ vsNegotiateNewhostLoop slot.session (receivedSysCmds buf bufSize).2
    ({ slot with
        session := { r.session with hostState := slot.failState }
        udpRunning := slot.udpRunning && !decide cancelled }, .nothing)

/-- The end of `vs_tcp_conn_loop` and of `vs_websocket_loop`.  The avatar id is
only reset when its node is not found. -/
def Slot.cleaned (slot : Slot) (avatarFound : Bool) : VSession :=
  let session := { slot.session with
    hostState := .listen
    flags := 0
    avatarId := if avatarFound then slot.session.avatarId else 0xFFFFFFFF }
  if slot.websocket then session
  else { session with peerToken := none, ded := none, clientName := none, clientVersion := none }

/-- The slot at the end of a connection. -/
def Slot.tornDown (slot : Slot) (avatarFound : Bool) : Slot :=
  { slot with
    session := slot.cleaned avatarFound
    opened := decide (slot.udpState = .open)
    udpStarted := false }

/-- One event. -/
def Slot.step (slot : Slot) : SlotEvent → Option (Slot × SlotOutput)
  | .accept websocket =>
      if slot.session.hostState = .listen then some (slot.accepted websocket, .nothing) else none
  | .message env buf bufSize =>
      match slot.session.hostState with
      | .listen | .closed => none
      | .streamOpen =>
          if slot.served then slot.streamMessage buf bufSize
          else some (slot.handshakeMessage env buf bufSize)
      | _ => some (slot.handshakeMessage env buf bufSize)
  | .pack takes =>
      if slot.session.hostState = .streamOpen ∧ slot.served then
        match vStreamPackMessage slot.session takes with
        | none => none
        | some (session, none) => some ({ slot with session := session }, .nothing)
        | some (session, some m) => some ({ slot with session := session }, .sent m.sysCmds m.cmds)
      else none
  | .closeFrame =>
      match slot.websocket, slot.session.hostState with
      | false, _ | _, .listen | _, .closed => none
      | true, .closing =>
          some ({ slot with session := { slot.session with hostState := .closed } }, .nothing)
      | true, _ =>
          some ({ slot with session := { slot.session with hostState := .closing } }, .nothing)
  | .stop =>
      match slot.websocket, slot.session.hostState with
      | false, _ | _, .listen | _, .closed => none
      | true, _ =>
          some ({ slot with session := { slot.session with hostState := .closing } }, .nothing)
  | .hangUp =>
      if slot.session.hostState = .listen then none
      else some ({ slot with session := { slot.session with hostState := .closed } }, .nothing)
  | .tearDown avatarFound =>
      -- only the TCP thread waits for the UDP thread
      if slot.session.hostState = .closed ∧ (slot.websocket ∨ slot.udpRunning = false) then
        some (slot.tornDown avatarFound, .nothing)
      else none
  | .udpOpen =>
      if slot.udpRunning ∧ slot.udpState = .handshake then
        some ({ slot with udpState := .open, opened := true }, .nothing)
      else none
  | .udpReceive sysCmds cmds =>
      if slot.udpRunning ∧ slot.udpState = .open then
        let session := sysCmds.foldl negotiateFps slot.session
        (pushAll session.inQueue cmds).map fun inQueue =>
          ({ slot with session := { session with inQueue := inQueue } }, .nothing)
      else none
  | .udpSend takes =>
      if slot.udpRunning ∧ slot.udpState = .open then
        let (sysCmds, tmpFlags) := negotiateFpsCmds slot.session
        some ({ slot with
          session := { slot.session with
            tmpFlags := tmpFlags
            outQueue := fun prio => (slot.session.outQueue prio).drop (takes prio) }
          history := slot.history ++ (List.range 256).reverse.flatMap fun prio =>
            ((slot.session.outQueue prio).take (takes prio)).map fun cmd => (prio, cmd) },
          .sent sysCmds ((poppedCmds slot.session.outQueue takes).map CmdPtr.cmd))
      else none
  | .udpAck i =>
      if slot.udpRunning ∧ slot.udpState = .open then
        match slot.history[i]? with
        | none => none
        | some (_, cmd) =>
            (pushFakeAck slot.session cmd).map fun session =>
              ({ slot with session := session, history := slot.history.eraseIdx i }, .nothing)
      else none
  | .udpNak i =>
      if slot.udpRunning ∧ slot.udpState = .open then
        match slot.history[i]? with
        | none => none
        | some (prio, cmd) =>
            (outListPush slot.session.outQueue true prio cmd).map fun outQueue =>
              ({ slot with
                session := { slot.session with outQueue := outQueue }
                history := slot.history.eraseIdx i }, .nothing)
      else none
  | .udpEnd =>
      if slot.udpRunning then
        some ({ slot with udpRunning := false, udpState := .closed, history := [] }, .nothing)
      else none
  | .push prio cmd =>
      if slot.opened ∧ minCmdId ≤ cmd.id.toNat then
        (outListPush slot.session.outQueue false prio.toNat (ptr cmd)).map fun outQueue =>
          ({ slot with session := { slot.session with outQueue := outQueue } }, .nothing)
      else none
  | .handle =>
      if slot.udpState = .open ∨ slot.session.hostState = .streamOpen then
        some ({ slot with session := { slot.session with inQueue := [] } },
          .handled slot.session.identity slot.session.inQueue)
      else none

end Verse
