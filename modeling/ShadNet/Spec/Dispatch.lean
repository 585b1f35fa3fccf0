import ShadNet.Spec.PacketReader
import ShadNet.Spec.RoomQuery
import ShadNet.Spec.ScoreQuery

/-!
# Dispatch

`DispatchCommand` takes the number of a command and the bytes of its payload. It notes which game a
score command is about, and hands the payload to the handler, which decodes its request. What the
parsers of the messages make of bytes is a parameter.
-/

namespace ShadNet

open Lib

/-! ## Command numbers -/

/-- The commands of the protocol. -/
inductive CommandType where
  | login
  | terminate
  | create
  | delete
  | sendToken
  | sendResetToken
  | resetPassword
  | resetState
  | addFriend
  | removeFriend
  | addBlock
  | removeBlock
  | getServerFeatures
  | getBoardInfos
  | recordScore
  | recordScoreData
  | getScoreData
  | getScoreRange
  | getScoreFriends
  | getScoreNpid
  | getScoreAccountId
  | getScoreGameDataByAccId
  | getToken
  | setAppearOffline
  | contextStart
  | createRoom
  | joinRoom
  | leaveRoom
  | searchRoom
  | requestSignalingInfos
  | contextStop
  | setUserInfo
  | setRoomDataInternal
  | setRoomDataExternal
  | kickoutRoomMember
  | getWorldInfoList
  | getRoomDataExternalList
  | getUserInfoList
  | getRoomMemberDataExternalList
  | sendRoomMessage
deriving DecidableEq, Repr

/-- Their numbers, as in `protocol.h`. -/
def CommandType.code : CommandType → ℕ
  | .login => 0
  | .terminate => 1
  | .create => 2
  | .delete => 3
  | .sendToken => 4
  | .sendResetToken => 5
  | .resetPassword => 6
  | .resetState => 7
  | .addFriend => 8
  | .removeFriend => 9
  | .addBlock => 10
  | .removeBlock => 11
  | .getServerFeatures => 12
  | .getBoardInfos => 30
  | .recordScore => 31
  | .recordScoreData => 32
  | .getScoreData => 33
  | .getScoreRange => 34
  | .getScoreFriends => 35
  | .getScoreNpid => 36
  | .getScoreAccountId => 37
  | .getScoreGameDataByAccId => 38
  | .getToken => 39
  | .setAppearOffline => 40
  | .contextStart => 100
  | .createRoom => 101
  | .joinRoom => 102
  | .leaveRoom => 103
  | .searchRoom => 104
  | .requestSignalingInfos => 105
  | .contextStop => 106
  | .setUserInfo => 107
  | .setRoomDataInternal => 108
  | .setRoomDataExternal => 109
  | .kickoutRoomMember => 110
  | .getWorldInfoList => 111
  | .getRoomDataExternalList => 112
  | .getUserInfoList => 113
  | .getRoomMemberDataExternalList => 114
  | .sendRoomMessage => 115

/-- The commands in the order of their numbers. -/
def CommandType.all : List CommandType :=
  [.login, .terminate, .create, .delete, .sendToken, .sendResetToken, .resetPassword, .resetState,
    .addFriend, .removeFriend, .addBlock, .removeBlock, .getServerFeatures, .getBoardInfos,
    .recordScore, .recordScoreData, .getScoreData, .getScoreRange, .getScoreFriends, .getScoreNpid,
    .getScoreAccountId, .getScoreGameDataByAccId, .getToken, .setAppearOffline, .contextStart,
    .createRoom, .joinRoom, .leaveRoom, .searchRoom, .requestSignalingInfos, .contextStop,
    .setUserInfo, .setRoomDataInternal, .setRoomDataExternal, .kickoutRoomMember, .getWorldInfoList,
    .getRoomDataExternalList, .getUserInfoList, .getRoomMemberDataExternalList, .sendRoomMessage]

/-- The command with a number, if there is one. -/
def CommandType.ofCode (code : ℕ) : Option CommandType := all.find? fun cmd => cmd.code = code

/-- The score commands, whose payload starts with a communication id of twelve bytes. -/
def CommandType.leadsWithComId : CommandType → Bool
  | .getBoardInfos | .recordScore | .recordScoreData | .getScoreData | .getScoreRange
  | .getScoreFriends | .getScoreNpid | .getScoreAccountId | .getScoreGameDataByAccId => true
  | _ => false

/-! ## Payloads -/

/-- The parsers of the request messages, for the fields that the commands use. -/
structure Messages where
  login : List UInt8 → Option LoginRequest
  registration : List UInt8 → Option RegistrationRequest
  friendCommand : List UInt8 → Option String
  setAppearOffline : List UInt8 → Option Bool
  contextStart : List UInt8 → Option ℕ
  contextStop : List UInt8 → Option Unit
  createRoom : List UInt8 → Option CreateRoomRequest
  joinRoom : List UInt8 → Option JoinRoomRequest
  leaveRoom : List UInt8 → Option ℕ
  kickoutRoomMember : List UInt8 → Option KickoutRoomMemberRequest
  setRoomDataInternal : List UInt8 → Option SetRoomDataInternalRequest
  setRoomDataExternal : List UInt8 → Option SetRoomDataExternalRequest
  searchRoom : List UInt8 → Option SearchRoomRequest
  getWorldInfoList : List UInt8 → Option ℕ
  getRoomDataExternalList : List UInt8 → Option GetRoomDataExternalListRequest
  getRoomMemberDataExternalList : List UInt8 → Option ℕ
  getUserInfoList : List UInt8 → Option GetUserInfoListRequest
  setUserInfo : List UInt8 → Option (List MatchingBinAttr)
  requestSignalingInfos : List UInt8 → Option String
  sendRoomMessage : List UInt8 → Option SendRoomMessageRequest
  recordScore : List UInt8 → Option RecordScoreRequest
  recordScoreGameData : List UInt8 → Option RecordScoreGameDataRequest
  getScoreGameData : List UInt8 → Option GetScoreGameDataRequest
  getScoreRange : List UInt8 → Option GetScoreRangeRequest
  getScoreFriends : List UInt8 → Option GetScoreFriendsRequest
  getScoreNpId : List UInt8 → Option GetScoreNpIdRequest
  getScoreAccountId : List UInt8 → Option GetScoreAccountIdRequest
  getScoreGameDataByAccountId : List UInt8 → Option GetScoreGameDataByAccountIdRequest

/-- The bytes of a region. What lies outside the payload is told by `outside`, by its distance from
the first payload byte. -/
def Region.read (outside : ℤ → UInt8) (data : List UInt8) (r : Region) : List UInt8 :=
  (List.range r.len).map fun i : ℕ =>
    let p := r.start + i
    if p < 0 then outside p else (data[p.toNat]?).getD (outside p)

section Decode

variable (outside : ℤ → UInt8) (payload : List UInt8)

/-- What a call has read; nothing if it has failed. -/
def readBytes (r : Option Region) : List UInt8 := (r.map (Region.read outside payload)).getD []

/-- `decodeProto`, and the check after it. -/
def decodeNext {M : Type} (parse : List UInt8 → Option M) (x : StreamExtractor) :
    StreamExtractor × Option M :=
  let (x, req) := x.decodeProto fun r => parse (r.read outside payload)
  (x, if x.error then none else req)

/-- The request of a command whose payload is one message. -/
def decodeRequest {M : Type} (parse : List UInt8 → Option M) : Option M :=
  (decodeNext outside payload parse (.ofData payload)).2

/-- The `ComId` that a score command leads with. -/
def readComId : StreamExtractor × String :=
  let (x, comId) := (StreamExtractor.ofData payload).getBytes 12
  (x, fromLatin1 (readBytes outside payload comId))

/-- The message behind a communication id. -/
def decodeScoreRequest {M : Type} (parse : List UInt8 → Option M) : Option M :=
  (decodeNext outside payload parse (readComId outside payload).1).2

/-- The request of `GetBoardInfos`. -/
def decodeBoard : Option (String × ℕ) :=
  let (x, comId) := readComId outside payload
  let boardId := x.getValue 4
  if (x.get 4).1.error then none else some (comId, boardId)

/-- What `RecordScoreData` reads behind its message. -/
def decodeRawData {M : Type} (parse : List UInt8 → Option M) : Option (List UInt8) :=
  let (x, rawData) := (decodeNext outside payload parse (readComId outside payload).1).1.getRawData
  if x.error then none else some (readBytes outside payload rawData)

/-- The npid and the password of `Delete`. -/
def decodeDelete : Option (String × String) :=
  let (x, npid) := (StreamExtractor.ofData payload).getString false
  let (x, password) := x.getString false
  if x.error then none
  else some (fromLatin1 (readBytes outside payload npid), fromLatin1 (readBytes outside payload password))

/-- The `ComId` that the dispatcher peeks at. -/
def peekComId : Option String :=
  ((StreamExtractor.ofData payload).peekBytes 12).map fun r => fromLatin1 (r.read outside payload)

end Decode

/-! ## State -/

/-- The server as one connection works on it. -/
structure DispatchState extends CommandState where
  userInfo : UserInfo := ∅
  udpExt : UdpExt := ∅
  /-- the table `title_name` -/
  titleNames : Table String String := ∅
  scores : ScoreSystem

/-- What the server is given when it starts. -/
structure ServerSetup extends Services where
  messages : Messages
  worldConfigs : Table String (List WorldConfig)
  isMatching2Enabled : Bool

/-- What the score commands take from their surroundings: the times, and whether the statements and
the file work. -/
structure ScoreEnv where
  timestamp : ℕ
  insertedAt : ℕ
  lookup : BoardLookup
  created : Bool
  exec : Bool
  opened : Bool

/-- What a command finds beside the state: the bytes around its buffer, the orders of the hash
tables that it walks, what score commands need, and whether the lookup of a title goes through. -/
structure DispatchEnv extends Env where
  outside : ℤ → UInt8
  roomOrder : Order RoomKey
  worldOrder : Order (String × ℕ)
  friendOrder : Order ℤ
  score : ScoreEnv
  titleOk : Bool

/-- What stands behind the error byte of a reply, before it is serialised. -/
inductive DispatchReply where
  | command (r : Reply)
  | serverFeatures (matching2Enabled : Bool)
  | token (token : String) (userId : ℕ) (npid : String)
  | boardInfo (cfg : ScoreBoardConfig)
  | rank (rank : ℕ)
  | gameData (data : List UInt8)
  | scores (r : GetScoreResponse)
  | worlds (worlds : List MatchingWorld)
  | searchRoom (r : SearchRoomReply)
  | rooms (rooms : List MatchingRoomDataExternal)
  | members (members : List MatchingRoomMemberDataExternal)
  | users (users : List MatchingUserInfo)
  | setUserInfo
  | signalingInfos (r : RequestSignalingInfosReply)
  /-- with the notification that is sent, and the npids that it is for -/
  | sendRoomMessage (roomId : ℕ) (n : NotifyRoomMessage) (targets : List String)

/-- The state after a command, its error, and its reply if there is one. -/
abbrev DispatchResult := DispatchState × ErrorType × Option DispatchReply

/-- `INSERT OR IGNORE`: a name stays once it is there. -/
def setTitleName (titleNames : Table String String) (comId titleName : String) (exec : Bool) :
    Table String String × Bool :=
  if comId = "" ∨ titleName = "" then (titleNames, false)
  else if !exec then (titleNames, false)
  else if (titleNames.get? comId).isSome then (titleNames, true)
  else (titleNames.set comId titleName, true)

namespace DispatchState

variable (s : DispatchState)

/-- What the dispatcher notes of a game that a user is seen in. -/
def noteGame (env : DispatchEnv) (comId : String) : DispatchState :=
  let userId := s.session.info.userId
  let titleName := ((s.shared.clients.get? userId).map (·.titleName)).getD ""
  { s with
    titleNames :=
      if comId ≠ "" ∧ titleName ≠ "" then (setTitleName s.titleNames comId titleName env.titleOk).1
      else s.titleNames
    shared := (usageTouchGame s.shared userId comId).1 }

/-- A command of `CommandState`. -/
def onCommand (r : CommandResult) : DispatchResult :=
  ({ s with toCommandState := r.1 }, r.2.1, r.2.2.map .command)

/-- The result of a command that changes nothing. -/
def onQuery {α : Type} (reply : α → DispatchReply) : Except ErrorType α → DispatchResult
  | .error e => (s, e, none)
  | .ok a => (s, .noError, some (reply a))

/-- Matching commands see the shared tables and the session's own part. -/
def matchingState : MatchingState := ⟨s.shared.matching, s.session.matching⟩

end DispatchState

/-! ## The commands that stand in no other module -/

/-- The token of the web API, for a session that has one. -/
def cmdGetToken (info : ClientInfo) : Except ErrorType (String × ℕ × String) :=
  if info.token = "" then .error .dbFail else .ok (info.token, accountId info.userId, info.npid)

/-- Whether matching is switched on is all that it says. -/
def cmdGetServerFeatures (isMatching2Enabled : Bool) : Except ErrorType Bool := .ok isMatching2Enabled

/-- What `CmdGetScoreFriends` takes of the caller's entry. -/
def friendIds (sh : SharedState) (order : Order ℤ) (userId : ℤ) : List ℤ :=
  match sh.clients.get? userId with
  | none => []
  | some e => (e.friends.inOrder order).map Prod.fst

/-! ## DispatchCommand -/

section Dispatch

variable (st : ServerSetup) (env : DispatchEnv) (c : ConnId) (s : DispatchState) (payload : List UInt8)

/-- The handlers of the score commands. -/
def runScoreCommand (cmd : CommandType) : DispatchResult :=
  let m := st.messages
  let info := s.session.info
  let cache := s.scores.scores.cache
  let now := env.score.timestamp
  let comId := (readComId env.outside payload).2
  match cmd with
  | .getBoardInfos =>
    let r := cmdGetBoardInfos s.scores.scores.db env.score.created env.score.lookup
      (decodeBoard env.outside payload)
    { s with scores := { s.scores with scores := { s.scores.scores with db := r.1 } } }.onQuery
      .boardInfo r.2
  | .recordScore =>
    let r := cmdRecordScore s.scores.scores ⟨info.userId, info.npid, comId,
      decodeScoreRequest env.outside payload m.recordScore, now, env.score.insertedAt,
      env.score.created, env.score.exec⟩ env.score.lookup
    ({ s with scores := { s.scores with scores := r.1 } }, r.2.1, r.2.2.map .rank)
  | .recordScoreData =>
    let r := cmdRecordScoreData s.scores ⟨info.userId, comId,
      decodeScoreRequest env.outside payload m.recordScoreGameData,
      decodeRawData env.outside payload m.recordScoreGameData, env.score.opened, env.score.exec⟩
    ({ s with scores := r.1 }, r.2, none)
  | .getScoreData =>
    let r := cmdGetScoreData (getUserId s.db) s.scores comId
      (decodeScoreRequest env.outside payload m.getScoreGameData)
    (s, r.1, r.2.map .gameData)
  | .getScoreRange =>
    s.onQuery .scores (cmdGetScoreRange cache now comId
      (decodeScoreRequest env.outside payload m.getScoreRange))
  | .getScoreFriends =>
    s.onQuery .scores (cmdGetScoreFriends cache now info.userId
      (friendIds s.shared env.friendOrder info.userId) comId
      (decodeScoreRequest env.outside payload m.getScoreFriends))
  | .getScoreNpid =>
    s.onQuery .scores (cmdGetScoreNpid (getUserId s.db) cache now comId
      (decodeScoreRequest env.outside payload m.getScoreNpId))
  | .getScoreAccountId =>
    s.onQuery .scores (cmdGetScoreAccountId cache now comId
      (decodeScoreRequest env.outside payload m.getScoreAccountId))
  | .getScoreGameDataByAccId =>
    let r := cmdGetScoreGameDataByAccId s.scores comId
      (decodeScoreRequest env.outside payload m.getScoreGameDataByAccountId)
    (s, r.1, r.2.map .gameData)
  | _ => (s, .invalid, none)

/-- What the payload of a command of `CommandState` asks for; nothing for the other commands. -/
def decodeCommand (cmd : CommandType) : Option Command :=
  let m := st.messages
  match cmd with
  | .login => some (.login (decodeRequest env.outside payload m.login))
  | .create => some (.create (decodeRequest env.outside payload m.registration))
  | .delete => some (.delete (decodeDelete env.outside payload))
  | .addFriend => some (.friend .addFriend (decodeRequest env.outside payload m.friendCommand))
  | .removeFriend => some (.friend .removeFriend (decodeRequest env.outside payload m.friendCommand))
  | .addBlock => some (.friend .addBlock (decodeRequest env.outside payload m.friendCommand))
  | .removeBlock => some (.friend .removeBlock (decodeRequest env.outside payload m.friendCommand))
  | .setAppearOffline =>
    some (.setAppearOffline (decodeRequest env.outside payload m.setAppearOffline))
  | .contextStart => some (.contextStart (decodeRequest env.outside payload m.contextStart))
  | .contextStop => some (.contextStop (decodeRequest env.outside payload m.contextStop).isSome)
  | .createRoom => some (.createRoom (decodeRequest env.outside payload m.createRoom))
  | .joinRoom => some (.joinRoom (decodeRequest env.outside payload m.joinRoom))
  | .leaveRoom => some (.leaveRoom (decodeRequest env.outside payload m.leaveRoom))
  | .kickoutRoomMember =>
    some (.kickoutRoomMember (decodeRequest env.outside payload m.kickoutRoomMember))
  | .setRoomDataInternal =>
    some (.setRoomDataInternal (decodeRequest env.outside payload m.setRoomDataInternal))
  | .setRoomDataExternal =>
    some (.setRoomDataExternal (decodeRequest env.outside payload m.setRoomDataExternal))
  | _ => none

/-- The handlers of the commands that no decoded `Command` stands for, less those of scores. -/
def runQuery (cmd : CommandType) : DispatchResult :=
  let m := st.messages
  let info := s.session.info
  match cmd with
  | .getServerFeatures => s.onQuery .serverFeatures (cmdGetServerFeatures st.isMatching2Enabled)
  | .getToken => s.onQuery (fun r => .token r.1 r.2.1 r.2.2) (cmdGetToken info)
  | .searchRoom =>
    s.onQuery .searchRoom (cmdSearchRoom env.roomOrder s.matchingState
      (decodeRequest env.outside payload m.searchRoom))
  | .getWorldInfoList =>
    s.onQuery .worlds (cmdGetWorldInfoList st.worldConfigs env.worldOrder s.matchingState
      (decodeRequest env.outside payload m.getWorldInfoList))
  | .getRoomDataExternalList =>
    s.onQuery .rooms (cmdGetRoomDataExternalList s.matchingState
      (decodeRequest env.outside payload m.getRoomDataExternalList))
  | .getRoomMemberDataExternalList =>
    s.onQuery .members (cmdGetRoomMemberDataExternalList s.matchingState
      (decodeRequest env.outside payload m.getRoomMemberDataExternalList))
  | .getUserInfoList =>
    s.onQuery .users (cmdGetUserInfoList info env.matching.order s.matchingState s.userInfo
      (decodeRequest env.outside payload m.getUserInfoList))
  | .setUserInfo =>
    let r := cmdSetUserInfo info s.session.matching s.userInfo
      (decodeRequest env.outside payload m.setUserInfo)
    ({ s with userInfo := r.1 }, r.2, if r.2 = .noError then some .setUserInfo else none)
  | .requestSignalingInfos =>
    s.onQuery .signalingInfos (cmdRequestSignalingInfos env.roomOrder env.matching.order s.matchingState
      s.udpExt (decodeRequest env.outside payload m.requestSignalingInfos))
  | .sendRoomMessage =>
    s.onQuery (fun r => .sendRoomMessage r.1.roomId r.1 r.2)
      (cmdSendRoomMessage info env.matching.order s.matchingState
        (decodeRequest env.outside payload m.sendRoomMessage))
  -- the numbers of four commands are known and nothing handles them
  | _ => (s, .invalid, none)

/-- The `switch` over the commands of a client who has logged in. -/
def runCommand (cmd : CommandType) : DispatchResult :=
  if cmd.leadsWithComId then runScoreCommand st env s payload cmd
  else match decodeCommand st env payload cmd with
    | some r => s.onCommand (dispatchCommand st.toServices env.toEnv c s.toCommandState r)
    | none => runQuery st env s payload cmd

end Dispatch

/-- `ClientSession::DispatchCommand`. Before a login only `Login` and `Create` are served, and
`Terminate` has no reply at all. -/
def dispatchPacket (st : ServerSetup) (env : DispatchEnv) (c : ConnId) (s : DispatchState) (p : Packet) :
    DispatchResult :=
  match CommandType.ofCode p.command with
  | some .terminate => (s, .noError, none)
  | cmd =>
    if !s.session.authenticated then
      match cmd with
      | some .login | some .create => runCommand st env c s p.payload (cmd.getD .login)
      | _ => (s, .unauthorized, none)
    else
      match cmd with
      | none => (s, .invalid, none)
      | some cmd =>
        let s :=
          if cmd.leadsWithComId then
            match peekComId env.outside p.payload with
            | none => s
            | some comId => s.noteGame env comId
          else s
        runCommand st env c s p.payload cmd

end ShadNet
