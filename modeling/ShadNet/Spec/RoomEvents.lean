import ShadNet.Lib.Replica
import ShadNet.Spec.Server

/-!
# Room events

What members of a room are told of those who come and go. A command changes the room in one step,
under the lock of the rooms; what it tells the members afterwards is a list of tasks, each of them a
step of its own, between which other connections do theirs. A connection takes no request before its
tasks are done.
-/

namespace ShadNet

open Lib

/-- The events of coming and going. Those about the data of a room are not here. -/
inductive RoomEventType where
  | memberJoined
  | memberLeft
  | kickedOut
deriving DecidableEq

/-- A member has left by himself. -/
def eventCauseLeaveAction : ℕ := 1

/-- A member was kicked out. -/
def eventCauseKickoutAction : ℕ := 2

/-- The cause of an event that the server brings about. -/
def eventCauseServerOperation : ℕ := 4

/-- `0xFF000019` as a signed number. -/
def matching2KickedoutStatusCode : ℤ := -0xFFFFE7

/-- What members are told of a change of their room. -/
structure NotifyRoomEvent where
  ctxId : ℕ := 0
  roomId : ℕ
  event : RoomEventType
  eventCause : ℕ
  errorCode : ℤ := 0
  member : Option MatchingRoomMemberData := none

/-- The packet of `SendRoomMemberEvent`, still without a context. -/
def roomMemberEvent (roomId : ℕ) (event : RoomEventType) (cause : ℕ) (member : RoomMember) :
    NotifyRoomEvent where
  roomId := roomId
  event := event
  eventCause := cause
  member := some (buildRoomMemberData member)

/-- The packet of `SendRoomEventToTarget`. -/
def roomTargetEvent (roomId : ℕ) (event : RoomEventType) (cause : ℕ) (errorCode : ℤ) :
    NotifyRoomEvent where
  roomId := roomId
  event := event
  eventCause := cause
  errorCode := errorCode

/-- What a member's client makes of an event: somebody is in the room, or no longer. -/
def NotifyRoomEvent.news (e : NotifyRoomEvent) : Option (News ℕ) :=
  match e.event with
  | .memberJoined => e.member.map fun m => ⟨m.memberId, true⟩
  | .memberLeft => e.member.map fun m => ⟨m.memberId, false⟩
  | .kickedOut => none

/-! ## Tasks -/

/-- What a command has still to do after its own lock section, each task with a lock section of its
own. -/
inductive RoomTask where
  /-- the joiner is looked up, to be announced -/
  | announce (key : RoomKey) (memberId : ℕ) (npid : String)
  | notifyRoomMembers (matchingKey : String) (e : NotifyRoomEvent) (excludeNpid : String)
  | sendMatchingNotification (e : NotifyRoomEvent) (targetNpid : String)
  | send (c : ConnId) (e : NotifyRoomEvent)
  /-- what a disconnect does after the room is left -/
  | cleanup (env : Env) (session : ClientSession)

/-- Where the notifications for a user go, and his matching context. -/
def SharedState.matchingClient (sh : SharedState) (npid : String) : Option (ConnId × ℕ) :=
  ((sh.npidToUserId.get? npid).bind sh.clients.get?).map fun e => (e.send, e.matchingContextId)

/-- There is nothing to send to a client without a context. -/
def sendTask (e : NotifyRoomEvent) (recipient : ConnId × ℕ) : Option RoomTask :=
  if recipient.2 ≠ 0 then some (.send recipient.1 { e with ctxId := recipient.2 }) else none

/-- What is left to do after the first step of a task. -/
def RoomTask.rest (sh : SharedState) (order : Order ℕ) : RoomTask → List RoomTask
  | .announce key memberId npid =>
    -- a member that is not found is announced all the same, as one without a name or an id
    let joined := ((sh.matching.rooms.get? key).bind fun room => room.findById memberId).getD {}
    [.notifyRoomMembers key.1 (roomMemberEvent key.2 .memberJoined eventCauseServerOperation joined)
      npid]
  | .notifyRoomMembers matchingKey e excludeNpid =>
    match sh.matching.rooms.get? (matchingKey, e.roomId) with
    | none => []
    | some room => (room.members.inOrder order).filterMap fun m =>
        if m.2.npid = excludeNpid then none
        else (sh.matchingClient m.2.npid).bind (sendTask e)
  | .sendMatchingNotification e targetNpid =>
    ((sh.matchingClient targetNpid).bind (sendTask e)).toList
  | .send .. => []
  | .cleanup .. => []

/-! ## Changes -/

/-- What a command does to the members of a room. -/
inductive RoomChange where
  | joined (key : RoomKey) (member : RoomMember)
  | left (key : RoomKey) (memberId : ℕ) (npid : String)
  | kicked (key : RoomKey) (memberId : ℕ) (npid : String)

namespace RoomChange

/-- The room that has changed. -/
def key : RoomChange → RoomKey
  | joined key _ => key
  | left key _ _ => key
  | kicked key _ _ => key

/-- The member that has come or gone. -/
def memberId : RoomChange → ℕ
  | joined _ member => member.memberId
  | left _ memberId _ => memberId
  | kicked _ memberId _ => memberId

/-- What the command does about it afterwards. -/
def tasks : RoomChange → List RoomTask
  | joined key member => [.announce key member.memberId member.npid]
  | left key memberId npid =>
    [.notifyRoomMembers key.1
      (roomMemberEvent key.2 .memberLeft eventCauseLeaveAction { memberId, npid }) ""]
  | kicked key memberId npid =>
    [.sendMatchingNotification
      (roomTargetEvent key.2 .kickedOut eventCauseKickoutAction matching2KickedoutStatusCode) npid,
    .notifyRoomMembers key.1
      (roomMemberEvent key.2 .memberLeft eventCauseKickoutAction { memberId, npid }) npid]

end RoomChange

/-- Of a room that is gone with its last member nobody is told. -/
def leaveChange (m : MatchingSharedState) (key : RoomKey) (npid : String) (order : Order ℕ) :
    Option RoomChange :=
  match leaveRoom m key npid order with
  | none => none
  | some (m, memberId) => if (m.rooms.get? key).isSome then some (.left key memberId npid) else none

/-- The change of a join, if it goes through. -/
def joinChange (info : ClientInfo) (env : MatchingEnv) (s : MatchingState) (req : JoinRoomRequest) :
    Option RoomChange :=
  let key := (s.own.matchingKey, req.roomId)
  match s.shared.rooms.get? key, (cmdJoinRoom info env s (some req)).2.2 with
  | some room, some _ => some (.joined key (room.newMember (createJoiner info env req)))
  | _, _ => none

/-- The change of a kick, if it goes through. -/
def kickChange (info : ClientInfo) (env : MatchingEnv) (s : MatchingState)
    (req : KickoutRoomMemberRequest) : Option RoomChange :=
  let key := (s.own.matchingKey, req.roomId)
  let targetMemberId := req.targetMemberId % 2 ^ 16
  match (s.shared.rooms.get? key).bind (fun room => room.findById targetMemberId),
      (cmdKickoutRoomMember info env s (some req)).2.2 with
  | some target, some _ => some (.kicked key targetMemberId target.npid)
  | _, _ => none

/-- The change of a room that a command makes. -/
def commandChange (env : Env) (s : CommandState) (cmd : Command) : Option RoomChange :=
  let info := s.session.info
  let m : MatchingState := ⟨s.shared.matching, s.session.matching⟩
  if !s.session.authenticated then none
  else match cmd with
  | .joinRoom (some req) => joinChange info env.matching m req
  | .leaveRoom (some roomId) =>
    leaveChange m.shared (m.own.matchingKey, roomId) info.npid env.matching.order
  | .kickoutRoomMember (some req) => kickChange info env.matching m req
  | _ => none

/-- The room that the connection itself names is left. -/
def disconnectChange (env : Env) (session : ClientSession) (sh : SharedState) : Option RoomChange :=
  let own := session.matching
  if !session.authenticated ∨ !own.initialized ∨ own.roomId = 0 then none
  else leaveChange sh.matching (own.matchingKey, own.roomId) session.info.npid env.matching.order

/-! ## Runs -/

/-- What has been sent, and to whom. For the record it is noted whom the sender's last `JoinRoom` has
put into which room. -/
structure SentEvent where
  conn : ConnId
  event : NotifyRoomEvent
  joined : Option (ℕ × RoomMember)

/-- The server, what its connections have still to do, and what they have sent. -/
structure RoomServer where
  server : Server
  tasks : Table ConnId (List RoomTask) := ∅
  joined : Table ConnId (ℕ × RoomMember) := ∅
  sent : List SentEvent := []

/-- What the scheduler lets happen next. -/
inductive RoomAction where
  /-- a request or a disconnect, up to its tasks -/
  | begin (e : Event)
  /-- the next step of a connection's first task -/
  | resume (c : ConnId) (order : Order ℕ)

/-- The connection leaves the room that it names, if it is in one. -/
def Server.leaveOnDisconnect (s : Server) (env : Env) (c : ConnId) (session : ClientSession) : Server :=
  let s := { s with conns := s.conns.set c (session.cleanedUp env s.shared) }
  if session.authenticated then
    let r := cleanupMatchingOnDisconnect session.info env.matching.order
      ⟨s.shared.matching, session.matching⟩
    { s with shared := { s.shared with matching := r.shared } }
  else s

/-- What the cleanup does after the client has left its room. -/
def Server.cleanupAfterLeave (s : Server) (env : Env) (c : ConnId) (session : ClientSession) : Server :=
  { s with
    shared := cleanupOnDisconnect env { session with matching := {} } s.shared
    gone := c :: s.gone }

namespace RoomServer

variable (w : RoomServer)

/-- What a connection has still to do. -/
def tasksOf (c : ConnId) : List RoomTask := (w.tasks.get? c).getD []

/-- The connection that a request is about, unless it is busy. -/
def idle (c : ConnId) : Option ClientSession :=
  if (w.tasksOf c).isEmpty then w.server.conns.get? c else none

/-- The connection that a disconnect is about: its cleanup runs once. -/
def leaving (c : ConnId) : Option ClientSession :=
  if (w.tasksOf c).isEmpty then w.server.live c else none

/-- Who comes or goes by an event. -/
def change : RoomAction → Option RoomChange
  | .begin (.request c cmd env) =>
    (w.idle c).bind fun session => commandChange env ⟨w.server.db, w.server.shared, session⟩ cmd
  | .begin (.disconnect c env) =>
    (w.leaving c).bind fun session => disconnectChange env session w.server.shared
  | _ => none

/-- A connection has changed the server, and has something to do. -/
def busy (c : ConnId) (server : Server) (change : Option RoomChange) (tasks : List RoomTask) :
    RoomServer :=
  { w with
    server
    tasks := w.tasks.set c ((change.elim [] RoomChange.tasks) ++ tasks)
    joined := match change with
      | some (.joined key member) => w.joined.set c (key.2, member)
      | _ => w.joined }

/-- The first step of connection `c`'s first task. -/
def resume (c : ConnId) (order : Order ℕ) : RoomServer :=
  match w.tasksOf c with
  | [] => w
  | task :: tasks =>
    { w with
      server := match task with
        | .cleanup env session => w.server.cleanupAfterLeave env c session
        | _ => w.server
      tasks := w.tasks.set c (task.rest w.server.shared order ++ tasks)
      sent := w.sent ++ match task with
        | .send conn event => [⟨conn, event, w.joined.get? c⟩]
        | _ => [] }

/-- A command begins on a connection that has nothing left to do, or a connection takes its next
step. -/
def step (sv : Services) (a : RoomAction) : RoomServer :=
  match a with
  | .begin .connect => { w with server := w.server.step sv .connect }
  | .begin (.request c cmd env) =>
    match w.idle c with
    | none => w
    | some _ => w.busy c (w.server.step sv (.request c cmd env)) (w.change a) []
  | .begin (.disconnect c env) =>
    match w.leaving c with
    | none => w
    | some session =>
      w.busy c (w.server.leaveOnDisconnect env c session) (w.change a) [.cleanup env session]
  | .resume c order => w.resume c order

end RoomServer

/-- The server after the first `n` actions, from a start that has read the title groups. -/
def roomServerAfter (sv : Services) (db : Database) (titleGroups : Table String String)
    (actions : List RoomAction) (n : ℕ) : RoomServer :=
  runAt (fun w a => w.step sv a)
    { server := { db, shared := { matching := { titleGroups } } } } actions n

end ShadNet
