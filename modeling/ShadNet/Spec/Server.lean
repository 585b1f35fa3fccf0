import ShadNet.Lib.Run
import ShadNet.Spec.Account
import ShadNet.Spec.Matching
import ShadNet.Spec.WebSession

/-!
# The server

What all connections share, what each keeps for itself, the commands that log users in and out
and those that change accounts, friends and rooms, and the cleanup after a disconnect. Each of
these is one step of `Server.step`; `CmdLogin` is made of two, its check and its registration.
-/

namespace ShadNet

open Lib

/-- Connections are numbered; no number is used twice. -/
abbrev ConnId := ℕ

/-- The entry of a user who is online, in `clients`. -/
structure ClientEntry where
  npid : String
  /-- the connection that the entry's send function writes to -/
  send : ConnId
  matchingContextId : ℕ := 0
  friends : Table ℤ String := ∅
  gameStatus : String := ""
  gameData : String := ""
  localizedGameStatus : Table String String := ∅
  npTitleId : String := ""
  titleName : String := ""
  platform : String := "PS4"
  appearOffline : Bool := false
  notifyWithData : Bool := false

/-- What all sessions share. -/
structure SharedState where
  clients : Table ℤ ClientEntry := ∅
  npidToUserId : Table String ℤ := ∅
  matching : MatchingSharedState := {}
  usageTotalOnline : ℤ := 0
  usageGameUsers : Table String ℤ := ∅
  usageClientGame : Table ℤ String := ∅
  sessions : Sessions := ∅

/-- A session, as long as its connection is. -/
structure ClientSession where
  info : ClientInfo := {}
  authenticated : Bool := false
  matching : MatchingSessionState := {}

/-! ## Usage -/

/-- A login counts one user more online. -/
def usageOnLogin (sh : SharedState) : SharedState :=
  { sh with usageTotalOnline := sh.usageTotalOnline + 1 }

/-- One user of the game less; a game without users is forgotten. -/
def leaveGame (games : Table String ℤ) (comId : String) : Table String ℤ :=
  match games.get? comId with
  | none => games
  | some n => if n - 1 ≤ 0 then games.del comId else games.set comId (n - 1)

/-- One user less is online, and one less in the game that he was last seen in. -/
def usageOnLogout (sh : SharedState) (userId : ℤ) : SharedState :=
  let sh := { sh with
    usageTotalOnline := if 0 < sh.usageTotalOnline then sh.usageTotalOnline - 1 else sh.usageTotalOnline }
  match sh.usageClientGame.get? userId with
  | none => sh
  | some comId => { sh with
      usageGameUsers := leaveGame sh.usageGameUsers comId
      usageClientGame := sh.usageClientGame.del userId }

/-- The flag tells whether the user's game has changed. -/
def usageTouchGame (sh : SharedState) (userId : ℤ) (comId : String) : SharedState × Bool :=
  let enter (games : Table String ℤ) := games.set comId ((games.get? comId).getD 0 + 1)
  if comId = "" then (sh, false)
  else match sh.usageClientGame.get? userId with
    | none => ({ sh with
        usageGameUsers := enter sh.usageGameUsers
        usageClientGame := sh.usageClientGame.set userId comId }, true)
    | some old =>
      if old = comId then (sh, false)
      else ({ sh with
        usageGameUsers := enter (leaveGame sh.usageGameUsers old)
        usageClientGame := sh.usageClientGame.set userId comId }, true)

theorem usageTouchGame_frame (sh : SharedState) (userId : ℤ) (comId : String) :
    (usageTouchGame sh userId comId).1 = { sh with
      usageGameUsers := (usageTouchGame sh userId comId).1.usageGameUsers
      usageClientGame := (usageTouchGame sh userId comId).1.usageClientGame } := by
  unfold usageTouchGame
  split
  · rfl
  · split
    · rfl
    · split <;> rfl

/-! ## Commands -/

/-- What a command of one connection works on. -/
structure CommandState where
  db : Database
  shared : SharedState
  session : ClientSession

/-- What a command takes from its surroundings; the flags say which database calls succeed. -/
structure Env where
  account : AccountEnv
  matching : MatchingEnv
  sessionOrder : Order String
  readOk : Bool
  writeOk : Bool

/-- What a login is told: the account, and its friends, requests and blocks by npid. -/
structure LoginReply where
  avatarUrl : String
  userId : ℕ
  /-- with the online flag of each -/
  friends : List (String × Bool)
  friendRequestsSent : List String
  friendRequestsReceived : List String
  blocked : List String

/-- The replies that have something behind their error. -/
inductive Reply where
  | login (r : LoginReply)
  | matching (r : MatchingReply)

/-- The state after a command, its error, and its reply if there is one. -/
abbrev CommandResult := CommandState × ErrorType × Option Reply

/-! ### Login -/

/-- What `Login` reads of its request. -/
structure LoginRequest where
  npid : String
  password : String
  token : String := ""
  titleId : String := ""
  titleName : String := ""
  appearOffline : Bool := false

/-- A login that was checked and is to be registered. -/
structure PendingLogin where
  user : UserRecord
  req : LoginRequest
  rels : UserRelationships

/-- The connection belongs to the user from here on. -/
def adoptUser (sh : SharedState) (session : ClientSession) (user : UserRecord) (titleId : String) :
    ClientSession :=
  { info := ⟨user.userId, user.username, user.avatarUrl, user.token, user.admin, user.statAgent,
      user.banned⟩
    authenticated := true
    matching := { session.matching with
      titleId := titleId
      matchingKey := (sh.matching.titleGroups.get? titleId).getD titleId } }

/-- `CmdLogin` up to the reply. -/
def loginCheck (sv : Services) (env : Env) (s : CommandState) :
    Option LoginRequest → Except ErrorType (ClientSession × PendingLogin)
  | none => .error .malformed
  | some req =>
    match checkUser sv s.db req.npid req.password req.token sv.config.emailValidated with
    | none => .error .loginInvalidPassword
    | some user =>
      if user.banned then .error .loginError
      else if (s.shared.clients.get? user.userId).isSome then .error .loginAlreadyLoggedIn
      else .ok (adoptUser s.shared s.session user req.titleId,
        ⟨user, req, getRelationships s.db user.userId env.readOk⟩)

/-- Friends who appear offline are told to be so. -/
def loginReply (sh : SharedState) (p : PendingLogin) : LoginReply where
  avatarUrl := p.user.avatarUrl
  userId := accountId p.user.userId
  friends := p.rels.friends.map fun f =>
    (f.2, match sh.clients.get? f.1 with
      | none => false
      | some e => !e.appearOffline)
  friendRequestsSent := p.rels.friendRequestsSent.map Prod.snd
  friendRequestsReceived := p.rels.friendRequestsReceived.map Prod.snd
  blocked := p.rels.blocked.map Prod.snd

/-- The entry that a login puts in. -/
def loginEntry (c : ConnId) (p : PendingLogin) : ClientEntry :=
  { npid := p.req.npid
    send := c
    friends := p.rels.friends.foldl (fun t f => t.set f.1 f.2) ∅
    npTitleId := p.req.titleId
    titleName := p.req.titleName
    appearOffline := p.req.appearOffline }

/-- `f` enters the friends of a user who is online. -/
def addOnlineFriend (clients : Table ℤ ClientEntry) (userId friendId : ℤ) (friendNpid : String) :
    Table ℤ ClientEntry :=
  clients.modify userId fun e => { e with friends := e.friends.set friendId friendNpid }

/-- `f` leaves the friends of a user who is online. -/
def removeOnlineFriend (clients : Table ℤ ClientEntry) (userId friendId : ℤ) : Table ℤ ClientEntry :=
  clients.modify userId fun e => { e with friends := e.friends.del friendId }

/-- What `CmdLogin` does once the checks have passed: the entry is put in, whether there is one or
not. -/
def loginRegister (sh : SharedState) (c : ConnId) (p : PendingLogin) : SharedState :=
  let clients := p.rels.friends.foldl
    (fun t f => addOnlineFriend t f.1 p.user.userId p.req.npid) sh.clients
  usageOnLogin { sh with
    clients := clients.set p.user.userId (loginEntry c p)
    npidToUserId := sh.npidToUserId.set p.req.npid p.user.userId }

/-- `CmdLogin` in one step. -/
def cmdLogin (sv : Services) (env : Env) (c : ConnId) (s : CommandState)
    (req : Option LoginRequest) : CommandResult :=
  match loginCheck sv env s req with
  | .error e => (s, e, none)
  | .ok (session, p) =>
    ({ s with shared := loginRegister s.shared c p, session := session }, .noError,
      some (.login (loginReply s.shared p)))

/-! ### Create and Delete -/

/-- What `Create` reads of its request. -/
structure RegistrationRequest where
  npid : String
  password : String
  avatarUrl : String := ""
  email : String
  secretKey : String := ""

/-- A character outside the basic plane is two surrogates in a `QString`, and these are neither
letters nor numbers. -/
def isValidNpid (qt : Qt) (npid : String) : Bool :=
  3 ≤ npid.toList.length ∧ npid.toList.length ≤ 16 ∧
  npid.toList.all (fun c => (c.toNat < 0x10000 ∧ qt.isLetterOrNumber c) ∨ c = '-' ∨ c = '_') ∧
  npid ≠ "DeletedUser"

/-- What follows the first `@`. -/
def domainOf (email : String) : Option String :=
  match email.toList.dropWhile (· ≠ '@') with
  | [] => none
  | _ :: rest => some (String.ofList rest)

/-- `CmdCreate`: the request is checked field by field before the account is created. -/
def cmdCreate (sv : Services) (env : Env) (s : CommandState) :
    Option RegistrationRequest → CommandResult
  | none => (s, .malformed, none)
  | some req =>
    if !sv.config.isRegistrationAllowed req.secretKey then (s, .unauthorized, none)
    else if !isValidNpid sv.qt req.npid then (s, .invalidInput, none)
    else if req.password = "" ∨ req.email = "" then (s, .invalidInput, none)
    else if ((domainOf req.email).map fun d => sv.isBannedDomain (sv.qt.toLower d)).getD false then
      (s, .creationBannedEmailProvider, none)
    else
      let avatarUrl :=
        if req.avatarUrl = "" then "https://shadps4.net/shadnet/avatars/default_01.png"
        else req.avatarUrl
      match createAccount sv env.account s.db req.npid req.password avatarUrl req.email with
      | (db, none) => ({ s with db }, .noError, none)
      | (db, some .existingUsername) => ({ s with db }, .creationExistingUsername, none)
      | (db, some .existingEmail) => ({ s with db }, .creationExistingEmail, none)
      | (db, some _) => ({ s with db }, .creationError, none)

/-- The request is an npid and a password. The connection is told to close afterwards. -/
def cmdDelete (sv : Services) (env : Env) (s : CommandState) :
    Option (String × String) → CommandResult
  | none => (s, .malformed, none)
  | some (npid, password) =>
    match checkUser sv s.db npid password "" false with
    | none => (s, .loginInvalidPassword, none)
    | some user =>
      if user.userId ≠ s.session.info.userId ∧ !s.session.info.admin then (s, .unauthorized, none)
      else if !env.writeOk then (s, .dbFail, none)
      else
        let s := { s with db := deleteUser s.db user.userId }
        -- of the caller's own account only the entry in `clients` goes
        if user.userId = s.session.info.userId then
          ({ s with
            shared := { s.shared with clients := s.shared.clients.del s.session.info.userId }
            session := { s.session with authenticated := false } }, .noError, none)
        else (s, .noError, none)

/-! ### Friends -/

/-- Both users' cached friends after a command that has succeeded. -/
def updateOnlineFriends (clients : Table ℤ ClientEntry) (info : ClientInfo)
    (command : FriendCommandType) (friendNpid : String) (rel : RelResult) (d : RelDecision) :
    Table ℤ ClientEntry :=
  let unfriend (otherId : ℤ) :=
    removeOnlineFriend (removeOnlineFriend clients info.userId otherId) otherId info.userId
  match command, d with
  | .addFriend, .set friendId _ newOther =>
    if has newOther FriendStatus.friend then
      addOnlineFriend (addOnlineFriend clients info.userId friendId friendNpid) friendId info.userId
        info.npid
    else clients
  | .removeFriend, .set friendId _ _ => unfriend friendId
  | .removeFriend, .delete friendId => unfriend friendId
  | .addBlock, .set targetId _ _ =>
    match rel with
    | .ok rel =>
      if has rel.caller FriendStatus.friend && has rel.other FriendStatus.friend then
        unfriend targetId
      else clients
    | _ => clients
  | _, _ => clients

/-- One of the four friend commands, its read and its write in one step. -/
def cmdFriend (env : Env) (s : CommandState) (command : FriendCommandType) (npid : Option String) :
    CommandResult :=
  let info := s.session.info
  let c : FriendCommand := ⟨command, info.userId, npid, env.readOk, env.writeOk⟩
  let d := c.decide (getUserId s.db) s.db.friendship
  let (friendship, e) := c.apply d s.db.friendship
  let friendNpid := npid.getD ""
  let rel := getRelStatus s.db.friendship info.userId ((getUserId s.db friendNpid).getD 0) env.readOk
  let clients :=
    if e = .noError then updateOnlineFriends s.shared.clients info command friendNpid rel d
    else s.shared.clients
  ({ s with db := { s.db with friendship }, shared := { s.shared with clients } }, e, none)

/-- `CmdSetAppearOffline`; a user who is not online has no entry to write. -/
def cmdSetAppearOffline (s : CommandState) : Option Bool → CommandResult
  | none => (s, .malformed, none)
  | some enable =>
    let clients := s.shared.clients.modify s.session.info.userId fun e =>
      { e with appearOffline := enable }
    ({ s with shared := { s.shared with clients } }, .noError, none)

/-! ### Matching -/

/-- The context of matching is written into entry and session. -/
def setContext (s : CommandState) (ctxId : ℕ) (initialized : Bool) : CommandState :=
  let clients := s.shared.clients.modify s.session.info.userId fun e =>
    { e with matchingContextId := ctxId }
  { s with
    shared := { s.shared with clients }
    session := { s.session with matching := { s.session.matching with ctxId, initialized } } }

/-- `CmdContextStart`. -/
def cmdContextStart (s : CommandState) : Option ℕ → CommandResult
  | none => (s, .malformed, none)
  | some ctxId => (setContext s ctxId true, .noError, none)

/-- `decoded` says whether the request could be read; nothing in it is used. -/
def cmdContextStop (s : CommandState) (decoded : Bool) : CommandResult :=
  if !decoded then (s, .malformed, none) else (setContext s 0 false, .noError, none)

/-- A matching command as a command of the server. -/
def onMatching (s : CommandState) (f : MatchingState → MatchingResult) : CommandResult :=
  let r := f ⟨s.shared.matching, s.session.matching⟩
  ({ s with
    shared := { s.shared with matching := r.1.shared }
    session := { s.session with matching := r.1.own } }, r.2.1, r.2.2.map .matching)

/-! ## Dispatch -/

/-- A command with its request, which is nothing if it does not decode. -/
inductive Command where
  | terminate
  | login (req : Option LoginRequest)
  | create (req : Option RegistrationRequest)
  | delete (req : Option (String × String))
  | friend (command : FriendCommandType) (npid : Option String)
  | setAppearOffline (req : Option Bool)
  | contextStart (ctxId : Option ℕ)
  | contextStop (decoded : Bool)
  | createRoom (req : Option CreateRoomRequest)
  | joinRoom (req : Option JoinRoomRequest)
  | leaveRoom (roomId : Option ℕ)
  | kickoutRoomMember (req : Option KickoutRoomMemberRequest)
  | setRoomDataInternal (req : Option SetRoomDataInternalRequest)
  | setRoomDataExternal (req : Option SetRoomDataExternalRequest)
  /-- a score command, with the 12 bytes that its payload leads with; its own work is not here -/
  | score (comId : Option String)
  /-- any other: it changes nothing of what is modelled here -/
  | other

/-- Each command goes to its handler; without a login only `Login` and `Create` do. -/
def dispatchCommand (sv : Services) (env : Env) (c : ConnId) (s : CommandState) (cmd : Command) :
    CommandResult :=
  if s.session.authenticated then
    let info := s.session.info
    match cmd with
    | .terminate => (s, .noError, none)
    | .login req => cmdLogin sv env c s req
    | .create req => cmdCreate sv env s req
    | .delete req => cmdDelete sv env s req
    | .friend command npid => cmdFriend env s command npid
    | .setAppearOffline req => cmdSetAppearOffline s req
    | .contextStart ctxId => cmdContextStart s ctxId
    | .contextStop decoded => cmdContextStop s decoded
    | .createRoom req => onMatching s fun m => cmdCreateRoom info env.matching m req
    | .joinRoom req => onMatching s fun m => cmdJoinRoom info env.matching m req
    | .leaveRoom roomId => onMatching s fun m => cmdLeaveRoom info env.matching m roomId
    | .kickoutRoomMember req => onMatching s fun m => cmdKickoutRoomMember info env.matching m req
    | .setRoomDataInternal req =>
      onMatching s fun m => cmdSetRoomDataInternal info env.matching m req
    | .setRoomDataExternal req => onMatching s fun m => cmdSetRoomDataExternal m req
    | .score (some comId) =>
      ({ s with shared := (usageTouchGame s.shared info.userId comId).1 }, .noError, none)
    | .score none => (s, .noError, none)
    | .other => (s, .noError, none)
  else
    match cmd with
    | .terminate => (s, .noError, none)
    | .login req => cmdLogin sv env c s req
    | .create req => cmdCreate sv env s req
    | _ => (s, .unauthorized, none)

/-! ## Disconnects -/

/-- `CleanupOnDisconnect`: the room is left, the user goes off the list of those online and out of
his sessions. A connection without a login leaves nothing behind. -/
def cleanupOnDisconnect (env : Env) (session : ClientSession) (sh : SharedState) : SharedState :=
  if !session.authenticated then sh
  else
    let info := session.info
    -- only the room that the connection itself names is left
    let m := cleanupMatchingOnDisconnect info env.matching.order ⟨sh.matching, session.matching⟩
    let sh := { sh with
      matching := m.shared
      sessions := (purgeUserFromSessions env.sessionOrder info.userId sh.sessions).1 }
    -- the entry is erased by its id, whichever connection has put it there
    let sh :=
      if (sh.clients.get? info.userId).isSome then { sh with
        clients := sh.clients.del info.userId
        npidToUserId := sh.npidToUserId.del info.npid }
      else sh
    usageOnLogout sh info.userId

/-- What `CleanupOnDisconnect` leaves of the session: it forgets the room that it has left. -/
def ClientSession.cleanedUp (session : ClientSession) (env : Env) (sh : SharedState) : ClientSession :=
  if !session.authenticated then session
  else { session with
    matching := (cleanupMatchingOnDisconnect session.info env.matching.order
      ⟨sh.matching, session.matching⟩).own }

@[simp] theorem ClientSession.cleanedUp_info (session : ClientSession) (env : Env) (sh : SharedState) :
    (session.cleanedUp env sh).info = session.info := by
  unfold ClientSession.cleanedUp
  split <;> rfl

@[simp] theorem ClientSession.cleanedUp_authenticated (session : ClientSession) (env : Env)
    (sh : SharedState) : (session.cleanedUp env sh).authenticated = session.authenticated := by
  unfold ClientSession.cleanedUp
  split <;> rfl

/-! ## Runs -/

/-- The server with the sessions of its connections. -/
structure Server where
  db : Database
  shared : SharedState := {}
  conns : Table ConnId ClientSession := ∅
  /-- the connections whose cleanup has run -/
  gone : List ConnId := []
  nextConn : ConnId := 0

/-- The session of a connection whose cleanup has not run yet. -/
def Server.live (s : Server) (c : ConnId) : Option ClientSession :=
  if c ∈ s.gone then none else s.conns.get? c

theorem Server.live_eq_some {s : Server} {c : ConnId} {session : ClientSession} :
    s.live c = some session ↔ c ∉ s.gone ∧ s.conns.get? c = some session := by
  unfold Server.live
  split <;> simp [*]

/-- What happens to the server on its connections. -/
inductive Event where
  | connect
  | request (c : ConnId) (cmd : Command) (env : Env)
  | disconnect (c : ConnId) (env : Env)

/-- The cleanup runs once, and the session outlasts it: when a reply is `Malformed` the source closes
the connection, cleans up, and goes on to the packets that it had already read. A client can have any
request read behind one that does not decode, so any request may come after the cleanup. -/
def Server.step (sv : Services) (s : Server) : Event → Server
  | .connect => { s with conns := s.conns.set s.nextConn {}, nextConn := s.nextConn + 1 }
  | .request c cmd env =>
    match s.conns.get? c with
    | none => s
    | some session =>
      let r := (dispatchCommand sv env c ⟨s.db, s.shared, session⟩ cmd).1
      { s with db := r.db, shared := r.shared, conns := s.conns.set c r.session }
  | .disconnect c env =>
    match s.live c with
    | none => s
    | some session =>
      { s with
        shared := cleanupOnDisconnect env session s.shared
        conns := s.conns.set c (session.cleanedUp env s.shared)
        gone := c :: s.gone }

/-- A disconnect leaves each connection with the login that it has. -/
theorem Server.of_disconnect_get? {sv : Services} {s : Server} {c c' : ConnId} {env : Env}
    {after : ClientSession} (h : (s.step sv (.disconnect c env)).conns.get? c' = some after) :
    ∃ session, s.conns.get? c' = some session ∧ after.info = session.info ∧
      after.authenticated = session.authenticated := by
  unfold Server.step at h
  cases hc : s.live c with
  | none =>
    simp only [hc] at h
    exact ⟨after, h, rfl, rfl⟩
  | some session =>
    simp only [hc] at h
    rcases Table.of_get?_set h with ⟨rfl, rfl⟩ | ⟨-, hold⟩
    · exact ⟨session, (Server.live_eq_some.mp hc).2, session.cleanedUp_info ..,
        session.cleanedUp_authenticated ..⟩
    · exact ⟨after, hold, rfl, rfl⟩

/-- Every database call succeeds, and iterations follow the list. -/
def Env.plain : Env := ⟨⟨[7], "token", true⟩, ⟨.listed, 0, "127.0.0.1", 9307⟩, .listed, true, true⟩

/-- The server after the first `n` events, from a start on an existing database. -/
def serverAfter (sv : Services) (db : Database) (events : List Event) (n : ℕ) : Server :=
  runAt (Server.step sv) { db } events n

end ShadNet
