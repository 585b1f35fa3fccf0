import ShadNet.Spec.Server

/-!
# Notifications

What the account and friend commands, the Appear-Offline switch and a disconnect send to other
users. A notification is worked out on the state that its command finds.
-/

namespace ShadNet

open Lib

/-- The game that the user was last seen in; empty if there is none. -/
def SharedState.comId (sh : SharedState) (userId : ℤ) : String :=
  (sh.usageClientGame.get? userId).getD ""

/-- The target plays the game that the caller plays. -/
def SharedState.sameGame (sh : SharedState) (callerId targetId : ℤ) : Bool :=
  sh.comId callerId ≠ "" && decide (sh.comId callerId = sh.comId targetId)

/-- What is sent to an online user. The refresh events of friend and block lists have nothing of
presence in them and are left out. -/
inductive Notification where
  | friendQuery (fromNpid : String)
  | friendNew (npid : String) (online : Bool)
  | friendLost (npid : String)
  | friendStatus (npid : String) (online : Bool)
  | webApiPushEvent (npServiceName dataType : String) (data : Option Json) (fromNpid toNpid : String)

/-- A notification on its way. Only the notification itself is sent, on the connection; whom that tells
about whom is kept beside it. What a recipient can go by is the npid in the notification, and that is
spelled as the source has it: the caller of a friend command is told what he wrote himself. -/
structure Sent where
  recipient : ℤ
  conn : ConnId
  about : ℤ
  notification : Notification

/-- To a user who is online. -/
def sendNotification (sh : SharedState) (targetUserId about : ℤ) (n : ClientEntry → Notification) :
    List Sent :=
  ((sh.clients.get? targetUserId).map fun e => ⟨targetUserId, e.send, about, n e⟩).toList

/-- To each of the friends in the user's entry that passes the test and is online. -/
def toFriends (sh : SharedState) (userId : ℤ) (p : ℤ → Bool) (n : ClientEntry → List Notification) :
    List Sent :=
  match sh.clients.get? userId with
  | none => []
  | some e => (e.friends.keys.filter p).flatMap fun fid =>
    match sh.clients.get? fid with
    | none => []
    | some fe => (n fe).map fun m => ⟨fid, fe.send, userId, m⟩

/-- The data type of a push about being online. -/
def kOnlineStatus : String := "np:service:presence:onlineStatus"

/-- The data type of a push about the game that is played. -/
def kGameTitleInfo : String := "np:service:presence:gameTitleInfo"

/-- The data type of a push about the status in the game. -/
def kGameStatus : String := "np:service:presence:gameStatus"

/-- The data type of a push about the data of the game. -/
def kGameData : String := "np:service:presence:gameData"

/-- A presence event of one member, whose new value is in it if the user wants that. -/
def inGamePresence (dataType member : String) (withData : Bool) (value : Json) (fromNpid : String)
    (fe : ClientEntry) : Notification :=
  .webApiPushEvent "inGamePresence" dataType (if withData then some (.obj [(member, value)]) else none)
    fromNpid fe.npid

/-! ## Commands -/

/-- To the friends who are online, unless the user appears offline. -/
def loginSent (sh : SharedState) (p : PendingLogin) : List Sent :=
  if p.req.appearOffline then []
  else p.rels.friends.flatMap fun f =>
    match sh.clients.get? f.1 with
    | none => []
    | some e => [⟨f.1, e.send, p.user.userId, .friendStatus p.req.npid true⟩,
      ⟨f.1, e.send, p.user.userId, .webApiPushEvent "" kOnlineStatus none p.req.npid f.2⟩]

/-- After a command that has succeeded; `c` is the caller's own connection. -/
def friendSent (sh : SharedState) (c : ConnId) (info : ClientInfo) (command : FriendCommandType)
    (friendNpid : String) (rel : RelResult) (d : RelDecision) : List Sent :=
  let lost (otherId : ℤ) := ⟨info.userId, c, otherId, .friendLost friendNpid⟩ ::
    sendNotification sh otherId info.userId fun _ => .friendLost info.npid
  match command, d with
  | .addFriend, .set friendId _ newOther =>
    if has newOther FriendStatus.friend then
      -- both are told of each other; whether they appear offline is not asked
      ⟨info.userId, c, friendId, .friendNew friendNpid (sh.clients.get? friendId).isSome⟩ ::
        sendNotification sh friendId info.userId fun _ => .friendNew info.npid true
    else sendNotification sh friendId info.userId fun _ => .friendQuery info.npid
  | .removeFriend, .set friendId _ _ => lost friendId
  | .removeFriend, .delete friendId => lost friendId
  | .addBlock, .set targetId _ _ =>
    match rel with
    | .ok rel =>
      if has rel.caller FriendStatus.friend && has rel.other FriendStatus.friend then lost targetId
      else []
    | _ => []
  | _, _ => []

/-- What a friend command sends: nothing unless it goes through. -/
def cmdFriendSent (env : Env) (c : ConnId) (s : CommandState) (command : FriendCommandType)
    (npid : Option String) : List Sent :=
  let info := s.session.info
  let cmd : FriendCommand := ⟨command, info.userId, npid, env.readOk, env.writeOk⟩
  let d := cmd.decide (getUserId s.db) s.db.friendship
  let friendNpid := npid.getD ""
  let rel := getRelStatus s.db.friendship info.userId ((getUserId s.db friendNpid).getD 0) env.readOk
  if (cmd.apply d s.db.friendship).2 = .noError then friendSent s.shared c info command friendNpid rel d
  else []

/-- The switch is told to all friends, with what they may see of the game to those in it. -/
def setAppearOfflineSent (sh : SharedState) (info : ClientInfo) (enable : Bool) : List Sent :=
  match sh.clients.get? info.userId with
  | none => []
  | some e =>
    if e.appearOffline = enable then []
    else
      let withData := !enable && e.notifyWithData
      toFriends sh info.userId (fun _ => true)
        (fun fe => [.webApiPushEvent "" kOnlineStatus none e.npid fe.npid]) ++
      toFriends sh info.userId (fun fid => sh.sameGame info.userId fid) fun fe =>
        (if e.npTitleId ≠ "" ∨ e.titleName ≠ ""
          then [.webApiPushEvent "inGamePresence" kGameTitleInfo none e.npid fe.npid] else []) ++
        (if e.gameStatus ≠ ""
          then [inGamePresence kGameStatus "gameStatus" withData (.str e.gameStatus) e.npid fe]
          else []) ++
        (if e.gameData ≠ ""
          then [inGamePresence kGameData "gameData" withData (.str e.gameData) e.npid fe] else [])

/-- To the friends in the user's game. -/
def emitPresenceGameTitleInfo (sh : SharedState) (info : ClientInfo) : List Sent :=
  match sh.clients.get? info.userId with
  | none => []
  | some e =>
    if e.appearOffline then []
    else toFriends sh info.userId (fun fid => sh.sameGame info.userId fid) fun fe =>
      [.webApiPushEvent "inGamePresence" kGameTitleInfo none info.npid fe.npid]

/-- What a command sends, as far as it is about presence and friends. -/
def commandSent (sv : Services) (env : Env) (c : ConnId) (s : CommandState) (cmd : Command) :
    List Sent :=
  match cmd with
  | .login req =>
    match loginCheck sv env s req with
    | .error _ => []
    | .ok (_, p) => loginSent s.shared p
  | .friend command npid =>
    if s.session.authenticated then cmdFriendSent env c s command npid else []
  | .setAppearOffline (some enable) =>
    if s.session.authenticated then setAppearOfflineSent s.shared s.session.info enable else []
  | .score (some comId) =>
    let (sh, changed) := usageTouchGame s.shared s.session.info.userId comId
    if s.session.authenticated ∧ changed then emitPresenceGameTitleInfo sh s.session.info else []
  | _ => []

/-- To the friends who are online, unless the user appears offline or was not logged in. -/
def disconnectSent (session : ClientSession) (sh : SharedState) : List Sent :=
  let info := session.info
  match sh.clients.get? info.userId with
  | none => []
  | some e =>
    if !session.authenticated || e.appearOffline then []
    else toFriends sh info.userId (fun _ => true) fun fe =>
      [.friendStatus info.npid false, .webApiPushEvent "" kOnlineStatus none info.npid fe.npid]

/-- What an event makes the server send. -/
def Server.sent (sv : Services) (s : Server) : Event → List Sent
  | .connect => []
  | .request c cmd env =>
    match s.conns.get? c with
    | none => []
    | some session => commandSent sv env c ⟨s.db, s.shared, session⟩ cmd
  | .disconnect c _ =>
    match s.live c with
    | none => []
    | some session => disconnectSent session s.shared

end ShadNet
