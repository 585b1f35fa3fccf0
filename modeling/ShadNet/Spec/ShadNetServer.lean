import ShadNet.Spec.Dispatch
import ShadNet.Spec.Stun

/-!
# The server on the network

The server as its sockets see it: bytes that arrive on connections in pieces of any size, packets cut
off their buffers and answered one at a time, and datagrams. Rounds of the packet loops of different
connections may come in any order, and a connection may go between two rounds of its loop.
-/

namespace ShadNet

open Lib

/-- The version that the server greets with. -/
def protocolVersion : ℕ := 1

/-- What `Start` sends. -/
def serverInfo : List UInt8 :=
  [PacketType.serverInfo.code] ++ toLe 2 0 ++ toLe 4 (headerSize + 4) ++ toLe 8 0 ++
    toLe 4 protocolVersion

/-- `m_socket->state()`. -/
inductive SocketState where
  | connected
  /-- `disconnectFromHost` was called, and the cleanup is to come -/
  | closing
  /-- the cleanup has run -/
  | unconnected
deriving DecidableEq, Repr

/-- A connection: who is logged in on it, the state of its socket, the bytes that wait to be read, where
it comes from, and what has come in over the socket and gone out so far. -/
structure Connection where
  session : ClientSession := {}
  socket : SocketState := .connected
  readBuf : List UInt8 := []
  peerAddress : String
  received : List UInt8 := []
  /-- `serverInfo` and the replies; what other users cause to be sent is in other modules -/
  sent : List (List UInt8) := [serverInfo]

namespace Connection

variable (conn : Connection)

/-- Only a socket that is connected is written to. -/
def sendPacket (pkt : List UInt8) : Connection :=
  { conn with sent := if conn.socket = .connected then conn.sent ++ [pkt] else conn.sent }

/-- A socket that is connected starts to close; any other stays as it is. -/
def disconnectFromHost : Connection :=
  { conn with socket := if conn.socket = .connected then .closing else conn.socket }

/-- After a request. It closes the connection if it was `Malformed`. -/
def answer (session : ClientSession) (readBuf : List UInt8) (result : ErrorType)
    (reply : List UInt8) : Connection :=
  let conn := { conn with session, readBuf }.sendPacket reply
  if result = .malformed then conn.disconnectFromHost else conn

/-- Only from a socket that is connected more is read. -/
def receive (chunk : List UInt8) : Connection :=
  if conn.socket = .connected then
    { conn with readBuf := conn.readBuf ++ chunk, received := conn.received ++ chunk }
  else conn

/-- The socket is gone, and with it the address of the other end; the session has been cleaned up. -/
def disconnected (session : ClientSession) : Connection :=
  { conn with session, socket := .unconnected, peerAddress := "" }

end Connection

/-- The whole server: its tables, and its connections with what is on their way. -/
structure ShadNetServer where
  db : Database
  shared : SharedState := {}
  userInfo : UserInfo := ∅
  udpExt : UdpExt := ∅
  /-- the table `title_name` -/
  titleNames : Table String String := ∅
  scores : ScoreSystem
  conns : Table ConnId Connection := ∅
  nextConn : ConnId := 0

/-- With what protobuf makes of a reply. -/
structure NetworkSetup extends ServerSetup where
  encodeReply : DispatchReply → ReplyBody

/-- What happens on the network, and in the loop of each connection. -/
inductive NetworkEvent where
  | connect (peerAddress : String)
  /-- bytes arrive -/
  | receive (c : ConnId) (chunk : List UInt8)
  /-- one round of the packet loop; the address in `env` is not used -/
  | process (c : ConnId) (env : DispatchEnv)
  | datagram (raw : List UInt8) (sender : HostAddress) (senderPort : UInt16)
  | disconnect (c : ConnId) (env : Env)

/-- Where the client can be reached: where its pings come from, or else its end of the connection. -/
def getSelfSignalingAddr (udpExt : UdpExt) (npid peerAddress : String) : String × ℕ :=
  let (addr, port) := (udpExt.get? npid).getD ("", 0)
  (if addr = "" then peerAddress else addr, port)

namespace ShadNetServer

variable (s : ShadNetServer)

/-- The server as the packets of one connection find it. -/
def dispatchState (conn : Connection) : DispatchState where
  db := s.db
  shared := s.shared
  session := conn.session
  userInfo := s.userInfo
  udpExt := s.udpExt
  titleNames := s.titleNames
  scores := s.scores

/-- The address that members are told is that of the caller's pings, or of his connection. -/
def dispatchEnv (conn : Connection) (env : DispatchEnv) : DispatchEnv :=
  let (addr, port) := getSelfSignalingAddr s.udpExt conn.session.info.npid conn.peerAddress
  { env with matching := { env.matching with addr, port } }

/-- The server after the packet was dispatched. -/
def processed (setup : NetworkSetup) (c : ConnId) (conn : Connection) (env : DispatchEnv) (p : Packet)
    (readBuf : List UInt8) : ShadNetServer :=
  let r := dispatchPacket setup.toServerSetup (s.dispatchEnv conn env) c (s.dispatchState conn) p
  let body := (r.2.2.map setup.encodeReply).getD .empty
  { s with
    db := r.1.db
    shared := r.1.shared
    userInfo := r.1.userInfo
    udpExt := r.1.udpExt
    titleNames := r.1.titleNames
    scores := r.1.scores
    conns := s.conns.set c (conn.answer r.1.session readBuf r.2.1 (replyTo p r.2.1 body)) }

/-- The rounds of a packet loop go on when its connection is closed, and after the cleanup: nothing in
the loop asks. Only an exit ends it, and one that closes the connection leaves the bytes as they are. -/
def step (setup : NetworkSetup) : NetworkEvent → ShadNetServer
  | .connect peerAddress =>
    { s with conns := s.conns.set s.nextConn { peerAddress }, nextConn := s.nextConn + 1 }
  | .receive c chunk =>
    { s with conns := s.conns.modify c fun conn => conn.receive chunk }
  | .process c env =>
    match s.conns.get? c with
    | none => s
    | some conn =>
      match iteration conn.readBuf with
      | .exit e =>
        if e.disconnects then { s with conns := s.conns.set c conn.disconnectFromHost } else s
      | .packet p readBuf => s.processed setup c conn env p readBuf
  | .datagram raw sender senderPort =>
    { s with udpExt := (onDatagram setup.qt s.udpExt raw sender senderPort).1 }
  | .disconnect c env =>
    match s.conns.get? c with
    | none => s
    | some conn =>
      if conn.socket = .unconnected then s
      else { s with
        shared := cleanupOnDisconnect env conn.session s.shared
        conns := s.conns.set c (conn.disconnected (conn.session.cleanedUp env s.shared)) }

end ShadNetServer

/-- What a start finds in the database and in the configuration. -/
structure ServerStart where
  db : Database
  titleNames : Table String String := ∅
  titleGroups : Table String String := ∅
  scores : ScoreSystem

/-- The server before its first client. -/
def ServerStart.server (start : ServerStart) : ShadNetServer where
  db := start.db
  shared := { matching := { titleGroups := start.titleGroups } }
  titleNames := start.titleNames
  scores := start.scores

/-- The server after the first `n` events. -/
def networkAfter (setup : NetworkSetup) (start : ServerStart) (events : List NetworkEvent) (n : ℕ) :
    ShadNetServer :=
  runAt (fun s e => ShadNetServer.step s setup e) start.server events n

end ShadNet
