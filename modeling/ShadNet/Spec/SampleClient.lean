import ShadNet.Lib.Wrap
import ShadNet.Spec.ClientReader

/-!
# The sample client

What `ShadNetClient` writes for each of its calls, and what it makes of the replies. What protobuf writes
and reads is a parameter, as it is on the side of the server.
-/

namespace ShadNet.SampleClient

open Lib

/-! ## Requests -/

/-- The numbers that the client knows. From `registerHandlers` on they are its own up to the scores. -/
inductive CommandType where
  | login
  | terminate
  | create
  | delete
  | sendToken
  | sendResetToken
  | resetPassword
  | resetState
  | addFriend
  | removeFriend
  | addBlock
  | removeBlock
  | registerHandlers
  | createRoom
  | joinRoom
  | leaveRoom
  | getRoomList
  | requestSignalingInfos
  | signalingEstablished
  | activationConfirm
  | setRoomDataInternal
  | setRoomDataExternal
  | kickoutRoomMember
  | getBoardInfos
  | recordScore
  | recordScoreData
  | getScoreData
  | getScoreRange
  | getScoreFriends
  | getScoreNpid
  | getScoreAccountId
  | getScoreGameDataByAccId
deriving DecidableEq, Repr

/-- Their numbers, as in `clientsample/types.h`. -/
def CommandType.code : CommandType → ℕ
  | .login => 0
  | .terminate => 1
  | .create => 2
  | .delete => 3
  | .sendToken => 4
  | .sendResetToken => 5
  | .resetPassword => 6
  | .resetState => 7
  | .addFriend => 8
  | .removeFriend => 9
  | .addBlock => 10
  | .removeBlock => 11
  | .registerHandlers => 12
  | .createRoom => 13
  | .joinRoom => 14
  | .leaveRoom => 15
  | .getRoomList => 16
  | .requestSignalingInfos => 17
  | .signalingEstablished => 18
  | .activationConfirm => 19
  | .setRoomDataInternal => 20
  | .setRoomDataExternal => 21
  | .kickoutRoomMember => 22
  | .getBoardInfos => 30
  | .recordScore => 31
  | .recordScoreData => 32
  | .getScoreData => 33
  | .getScoreRange => 34
  | .getScoreFriends => 35
  | .getScoreNpid => 36
  | .getScoreAccountId => 37
  | .getScoreGameDataByAccId => 38

/-- The commands that the client knows. -/
def CommandType.all : List CommandType :=
  [.login, .terminate, .create, .delete, .sendToken, .sendResetToken, .resetPassword, .resetState,
    .addFriend, .removeFriend, .addBlock, .removeBlock, .registerHandlers, .createRoom, .joinRoom,
    .leaveRoom, .getRoomList, .requestSignalingInfos, .signalingEstablished, .activationConfirm,
    .setRoomDataInternal, .setRoomDataExternal, .kickoutRoomMember, .getBoardInfos, .recordScore,
    .recordScoreData, .getScoreData, .getScoreRange, .getScoreFriends, .getScoreNpid,
    .getScoreAccountId, .getScoreGameDataByAccId]

/-- The command with the number. -/
def CommandType.ofCode (code : ℕ) : Option CommandType := all.find? fun cmd => cmd.code = code

/-- The messages as the client writes them. -/
structure Writers where
  login : LoginRequest → List UInt8
  registration : RegistrationRequest → List UInt8
  friendCommand : String → List UInt8
  recordScore : RecordScoreRequest → List UInt8
  recordScoreGameData : RecordScoreGameDataRequest → List UInt8
  getScoreGameData : GetScoreGameDataRequest → List UInt8
  getScoreRange : GetScoreRangeRequest → List UInt8
  getScoreFriends : GetScoreFriendsRequest → List UInt8
  getScoreNpId : GetScoreNpIdRequest → List UInt8
  getScoreAccountId : GetScoreAccountIdRequest → List UInt8
  getScoreGameDataByAccountId : GetScoreGameDataByAccountIdRequest → List UInt8

/-- A request with its header. -/
def buildPacket (cmd : CommandType) (id : UInt64) (payload : List UInt8) : List UInt8 :=
  [PacketType.request.code] ++ toLe 2 cmd.code ++ toLe 4 (headerSize + payload.length) ++
    toLe 8 id.toNat ++ payload

/-- A message behind its length. -/
def makeProtoPayload (serialised : List UInt8) : List UInt8 := toLe 4 serialised.length ++ serialised

/-- The bytes of a `ComId`, cut off or filled up with zeros. -/
def comIdBytes (comId : List UInt8) : List UInt8 := comId.take 12 ++ List.replicate (12 - comId.length) 0

/-- A message behind the communication id and its length. -/
def makeScorePayload (comId serialised : List UInt8) : List UInt8 :=
  comIdBytes comId ++ toLe 4 serialised.length ++ serialised

/-- The calls about rooms. -/
inductive MatchingCall where
  | registerHandlers
  | createRoom
  | joinRoom
  | leaveRoom
  | getRoomList
  | requestSignalingInfos
  | setRoomDataInternal
  | setRoomDataExternal
  | kickoutRoomMember
deriving DecidableEq, Repr

/-- The calls of a `ShadNetClient` that send something, with their arguments. -/
inductive Call where
  | login (npid password token : String)
  | createAccount (npid password avatarUrl email secretKey : String)
  /-- `addFriend`, `removeFriend`, `addBlock` and `removeBlock` -/
  | sendFriendCommand (cmd : FriendCommandType) (targetNpid : String)
  /-- with the message; `getRoomList` sends none -/
  | matching (call : MatchingCall) (serialised : List UInt8)
  | getBoardInfos (comId : List UInt8) (boardId : UInt32)
  | recordScore (comId : List UInt8) (boardId : UInt32) (pcId : Int32) (score : Int64) (comment : String)
    (gameInfo : List UInt8)
  | recordScoreData (comId : List UInt8) (boardId : UInt32) (pcId : Int32) (score : Int64)
    (data : List UInt8)
  | getScoreData (comId : List UInt8) (boardId : UInt32) (npid : String) (pcId : Int32)
  | getScoreRange (comId : List UInt8) (boardId startRank numRanks : UInt32)
    (withComment withGameInfo : Bool)
  | getScoreNpid (comId : List UInt8) (boardId : UInt32) (targets : List (String × Int32))
    (withComment withGameInfo : Bool)
  | getScoreAccountId (comId : List UInt8) (boardId : UInt32) (targets : List (Int64 × Int32))
    (withComment withGameInfo : Bool)
  | getScoreGameDataByAccountId (comId : List UInt8) (boardId : UInt32) (accountId : Int64) (pcId : Int32)
  | getScoreFriends (comId : List UInt8) (boardId : UInt32) (includeSelf : Bool) (max : UInt32)
    (withComment withGameInfo : Bool)

/-- The command that a matching call sends. -/
def MatchingCall.command : MatchingCall → CommandType
  | .registerHandlers => .registerHandlers
  | .createRoom => .createRoom
  | .joinRoom => .joinRoom
  | .leaveRoom => .leaveRoom
  | .getRoomList => .getRoomList
  | .requestSignalingInfos => .requestSignalingInfos
  | .setRoomDataInternal => .setRoomDataInternal
  | .setRoomDataExternal => .setRoomDataExternal
  | .kickoutRoomMember => .kickoutRoomMember

/-- The command that a friend call sends. -/
def friendCommand : FriendCommandType → CommandType
  | .addFriend => .addFriend
  | .removeFriend => .removeFriend
  | .addBlock => .addBlock
  | .removeBlock => .removeBlock

namespace Call

/-- The command that a call sends. -/
def command : Call → CommandType
  | .login .. => .login
  | .createAccount .. => .create
  | .sendFriendCommand cmd _ => friendCommand cmd
  | .matching call _ => call.command
  | .getBoardInfos .. => .getBoardInfos
  | .recordScore .. => .recordScore
  | .recordScoreData .. => .recordScoreData
  | .getScoreData .. => .getScoreData
  | .getScoreRange .. => .getScoreRange
  | .getScoreNpid .. => .getScoreNpid
  | .getScoreAccountId .. => .getScoreAccountId
  | .getScoreGameDataByAccountId .. => .getScoreGameDataByAccId
  | .getScoreFriends .. => .getScoreFriends

/-- What the call puts behind the header. Fields that are set only when they are not empty are empty
otherwise. -/
def payload (w : Writers) : Call → List UInt8
  | .login npid password token => makeProtoPayload (w.login { npid, password, token })
  | .createAccount npid password avatarUrl email secretKey =>
    makeProtoPayload (w.registration { npid, password, avatarUrl, email, secretKey })
  | .sendFriendCommand _ targetNpid => makeProtoPayload (w.friendCommand targetNpid)
  | .matching .getRoomList _ => []
  | .matching _ serialised => makeProtoPayload serialised
  | .getBoardInfos comId boardId => comIdBytes comId ++ toLe 4 boardId.toNat
  | .recordScore comId boardId pcId score comment gameInfo =>
    makeScorePayload comId (w.recordScore ⟨boardId.toNat, pcId.toInt, score.toInt, comment, gameInfo⟩)
  | .recordScoreData comId boardId pcId score data =>
    makeScorePayload comId (w.recordScoreGameData ⟨boardId.toNat, pcId.toInt, score.toInt⟩) ++
      toLe 4 data.length ++ data
  | .getScoreData comId boardId npid pcId =>
    makeScorePayload comId (w.getScoreGameData ⟨npid, boardId.toNat, pcId.toInt⟩)
  | .getScoreRange comId boardId startRank numRanks withComment withGameInfo =>
    makeScorePayload comId
      (w.getScoreRange ⟨boardId.toNat, startRank.toNat, numRanks.toNat, withComment, withGameInfo⟩)
  | .getScoreNpid comId boardId targets withComment withGameInfo =>
    makeScorePayload comId (w.getScoreNpId
      ⟨boardId.toNat, targets.map fun t => (t.1, t.2.toInt), withComment, withGameInfo⟩)
  | .getScoreAccountId comId boardId targets withComment withGameInfo =>
    makeScorePayload comId (w.getScoreAccountId
      ⟨boardId.toNat, targets.map fun t => (t.1.toInt, t.2.toInt), withComment, withGameInfo⟩)
  | .getScoreGameDataByAccountId comId boardId accountId pcId =>
    makeScorePayload comId
      (w.getScoreGameDataByAccountId ⟨accountId.toInt, boardId.toNat, pcId.toInt⟩)
  | .getScoreFriends comId boardId includeSelf max withComment withGameInfo =>
    makeScorePayload comId
      (w.getScoreFriends ⟨boardId.toNat, includeSelf, max.toNat, withComment, withGameInfo⟩)

end Call

/-- What calls send one after another, from a value of `packetCounter` on. -/
def packets (w : Writers) : UInt64 → List Call → List (List UInt8)
  | _, [] => []
  | id, call :: calls => buildPacket call.command id (call.payload w) :: packets w (id + 1) calls

/-! ## Replies -/

/-- What a `CreateRoomReply` tells. -/
structure CreatedRoom where
  roomId : ℕ
  serverId : ℕ
  worldId : ℕ
  lobbyId : ℕ
  memberId : ℕ
  maxSlots : ℕ
  flags : UInt32
  curMembers : ℕ
  details : CreateJoinRoomResponse

/-- What a `JoinRoomReply` tells. -/
structure JoinedRoom where
  roomId : ℕ
  memberId : ℕ
  maxSlots : ℕ
  flags : UInt32
  curMembers : ℕ
  details : CreateJoinRoomResponse

/-- The messages as the client reads them. -/
structure Readers where
  login : List UInt8 → Option LoginReply
  boardInfo : List UInt8 → Option ScoreBoardConfig
  getScore : List UInt8 → Option GetScoreResponse
  createRoom : List UInt8 → Option CreatedRoom
  joinRoom : List UInt8 → Option JoinedRoom
  roomList : List UInt8 → Option (List MatchingRoomDataExternal)
  signalingInfos : List UInt8 → Option RequestSignalingInfosReply
  /-- of the messages that tell a room and nothing else -/
  leaveRoom : List UInt8 → Option ℕ
  setRoomDataInternal : List UInt8 → Option ℕ
  setRoomDataExternal : List UInt8 → Option ℕ
  kickoutRoomMember : List UInt8 → Option ℕ

/-- The version of the protocol that the client speaks. -/
def protocolVersion : ℕ := 1

/-- `ShadNetConnection::connect` on what arrives: what is behind the greeting, or the error. -/
def connect (arrived : List UInt8) : Except String (List UInt8) :=
  if arrived.length < headerSize then .error "Timeout waiting for ServerInfo"
  else
    let h := header arrived
    if h.type ≠ PacketType.serverInfo.code then .error "Expected ServerInfo packet"
    else
      -- a size below that of the header is taken for an empty payload
      let payloadSz := h.pktSize - headerSize
      let payload := (arrived.drop headerSize).take payloadSz
      if payload.length < payloadSz then .error "Timeout reading ServerInfo payload"
      else
        let version := fromLe (payload.take 4)
        if 4 ≤ payloadSz ∧ version ≠ protocolVersion then
          .error s!"Protocol version mismatch: server={version} client={protocolVersion}"
        else .ok (arrived.drop (headerSize + payloadSz))

/-- One packet off the buffer, when it is all there. -/
def parsePacket : List UInt8 → Option (GuestPacket × List UInt8) :=
  takePacket fun pktSize => pktSize < headerSize

/-- A header whose size is smaller than a header. -/
def corrupt (buf : List UInt8) : Bool :=
  decide (headerSize ≤ buf.length ∧ (header buf).pktSize < headerSize)

/-- `ShadNetConnection::parse`, for `fuel` rounds at most. A corrupt packet drops everything. -/
def parse : ℕ → List UInt8 → Option (List GuestPacket × List UInt8)
  | 0, _ => none
  | fuel + 1, buf =>
    match parsePacket buf with
    | none => some ([], if corrupt buf then [] else buf)
    | some (p, rest) => (parse fuel rest).map fun r => (p :: r.1, r.2)

/-- One `update` after another, each with what has arrived. -/
def updates (fuel : ℕ) (buf : List UInt8) : List (List UInt8) → Option (List GuestPacket × List UInt8)
  | [] => some ([], buf)
  | chunk :: chunks =>
    (parse fuel (buf ++ chunk)).bind fun r =>
      (updates fuel r.2 chunks).map fun r' => (r.1 ++ r'.1, r'.2)

/-- The bytes behind a length. It is `none` where bytes past the end of the packet are read: the
check takes the length for an `int`, which a length from `2 ^ 31` on makes negative. -/
def extractBlob (p : List UInt8) (pos : ℕ) : Option (List UInt8) :=
  if p.length < pos + 4 then some []
  else
    let len := fromLe ((p.drop pos).take 4)
    if (p.length : ℤ) < (pos + 4 : ℕ) + wrap32 len then some []
    else if p.length < pos + 4 + len then none
    else some ((p.drop (pos + 4)).take len)

/-- The codes of errors that the handlers name themselves. -/
def noError : UInt8 := 0

/-- What the client reports of a reply that it cannot read. -/
def malformed : UInt8 := 1

/-- The first byte of a reply. -/
def errorOf (payload : List UInt8) : UInt8 := payload.headD malformed

/-- What the client reports of a login. -/
structure LoginResult where
  error : UInt8 := malformed
  avatarUrl : String := ""
  userId : ℕ := 0
  friends : List (String × Bool) := []
  friendRequestsSent : List String := []
  friendRequestsReceived : List String := []
  blocked : List String := []
deriving DecidableEq, Repr

/-- What the client reports of a board. -/
structure BoardInfo where
  error : UInt8 := malformed
  rankLimit : ℕ := 0
  updateMode : ℕ := 0
  sortMode : ℕ := 0
  uploadNumLimit : ℕ := 0
  uploadSizeLimit : ℕ := 0
deriving DecidableEq, Repr

/-- A rank with its comment and its information. -/
structure ScoreRankEntry where
  rank : ScoreRankData
  comment : String := ""
  gameInfo : List UInt8 := []

/-- What the client reports of a list of ranks. -/
structure ScoreRangeResult where
  error : UInt8 := malformed
  entries : List ScoreRankEntry := []
  lastSortDate : ℕ := 0
  totalRecord : ℕ := 0

/-- What the client reports of a score. -/
structure RecordScoreResult where
  error : UInt8 := malformed
  rank : ℕ := 0
deriving DecidableEq, Repr

/-- The handlers give nothing where bytes past the end of the packet are read. -/
def handleLoginReply (r : Readers) (payload : List UInt8) : Option LoginResult :=
  if payload = [] then some {}
  else if errorOf payload = noError then
    (extractBlob payload 1).map fun blob =>
      match r.login blob with
      | none => {}
      | some pb => ⟨noError, pb.avatarUrl, pb.userId, pb.friends, pb.friendRequestsSent,
          pb.friendRequestsReceived, pb.blocked⟩
  else some { error := errorOf payload }

/-- The message is read behind the error; nothing where the length of the blob takes the read out of
the payload. -/
def handleBoardInfosReply (r : Readers) (payload : List UInt8) : Option BoardInfo :=
  if payload = [] then some {}
  else if errorOf payload = noError then
    (extractBlob payload 1).map fun blob =>
      match r.boardInfo blob with
      | none => { error := noError }
      | some pb =>
        ⟨noError, pb.rankLimit, pb.updateMode, pb.sortMode, pb.uploadNumLimit, pb.uploadSizeLimit⟩
  else some { error := errorOf payload }

/-- The rank is read behind the error, if there are four bytes. -/
def handleRecordScoreReply (payload : List UInt8) : RecordScoreResult :=
  if payload = [] then {}
  else if errorOf payload = noError ∧ 5 ≤ payload.length then
    { error := noError, rank := fromLe ((payload.drop 1).take 4) }
  else { error := errorOf payload }

/-- Of `GetScoreData` and `GetScoreGameDataByAccId`. -/
def handleGetScoreDataReply (payload : List UInt8) : Option (UInt8 × List UInt8) :=
  if errorOf payload = noError ∧ 5 ≤ payload.length then
    let blobLen := fromLe ((payload.drop 1).take 4)
    if payload.length < 5 + blobLen then none else some (noError, (payload.drop 5).take blobLen)
  else some (errorOf payload, [])

/-- The message is read behind the error; nothing where the length of the blob takes the read out of
the payload. -/
def handleScoreRangeReply (r : Readers) (payload : List UInt8) : Option ScoreRangeResult :=
  if payload = [] then some {}
  else if errorOf payload = noError then
    (extractBlob payload 1).map fun blob =>
      match r.getScore blob with
      | none => { error := noError }
      | some pb =>
        { error := noError
          entries := pb.rankArray.mapIdx fun i rank =>
            ⟨rank, pb.commentArray.getD i "", pb.infoArray.getD i []⟩
          lastSortDate := pb.lastSortDate
          totalRecord := pb.totalRecord }
  else some { error := errorOf payload }

/-! ### Rooms -/

/-- The error and what the message tells; a message that cannot be read is an error. -/
def handleMessageReply {α : Type} (read : List UInt8 → Option α) (payload : List UInt8) :
    Option (UInt8 × Option α) :=
  if payload = [] then some (malformed, none)
  else if errorOf payload = noError then
    (extractBlob payload 1).map fun blob =>
      match read blob with
      | none => (malformed, none)
      | some pb => (noError, some pb)
  else some (errorOf payload, none)

/-- The error and the room; of a message that cannot be read it is 0. -/
def handleRoomIdReply (read : List UInt8 → Option ℕ) (payload : List UInt8) : Option (UInt8 × ℕ) :=
  if payload = [] then some (malformed, 0)
  else if errorOf payload = noError then
    (extractBlob payload 1).map fun blob => (noError, (read blob).getD 0)
  else some (errorOf payload, 0)

/-- The reply to `CreateRoom`. -/
def handleCreateRoomReply (r : Readers) (payload : List UInt8) : Option (UInt8 × Option CreatedRoom) :=
  handleMessageReply r.createRoom payload

/-- The reply to `JoinRoom`. -/
def handleJoinRoomReply (r : Readers) (payload : List UInt8) : Option (UInt8 × Option JoinedRoom) :=
  handleMessageReply r.joinRoom payload

/-- The reply to `GetRoomList`. -/
def handleRoomListReply (r : Readers) (payload : List UInt8) :
    Option (UInt8 × Option (List MatchingRoomDataExternal)) :=
  handleMessageReply r.roomList payload

/-- The reply to `RequestSignalingInfos`. -/
def handleSignalingInfosReply (r : Readers) (payload : List UInt8) :
    Option (UInt8 × Option RequestSignalingInfosReply) :=
  handleMessageReply r.signalingInfos payload

/-- The reply to `LeaveRoom`. -/
def handleLeaveRoomReply (r : Readers) (payload : List UInt8) : Option (UInt8 × ℕ) :=
  handleRoomIdReply r.leaveRoom payload

/-- The reply to `SetRoomDataInternal`. -/
def handleSetRoomDataInternalReply (r : Readers) (payload : List UInt8) : Option (UInt8 × ℕ) :=
  handleRoomIdReply r.setRoomDataInternal payload

/-- The reply to `SetRoomDataExternal`. -/
def handleSetRoomDataExternalReply (r : Readers) (payload : List UInt8) : Option (UInt8 × ℕ) :=
  handleRoomIdReply r.setRoomDataExternal payload

/-- The reply to `KickoutRoomMember`. -/
def handleKickoutRoomMemberReply (r : Readers) (payload : List UInt8) : Option (UInt8 × ℕ) :=
  handleRoomIdReply r.kickoutRoomMember payload

/-! ### Packets -/

/-- What a callback is called with. -/
inductive Result where
  | login (r : LoginResult)
  | create (error : UInt8)
  | friend (cmd : FriendCommandType) (error : UInt8) (targetNpid : String)
  | boardInfos (r : BoardInfo)
  | recordScore (r : RecordScoreResult)
  | recordScoreData (error : UInt8)
  | getScoreData (error : UInt8) (data : List UInt8)
  | scoreRange (r : ScoreRangeResult)
  | registerHandlers (error : UInt8)
  | createRoom (error : UInt8) (room : Option CreatedRoom)
  | joinRoom (error : UInt8) (room : Option JoinedRoom)
  | leaveRoom (error : UInt8) (roomId : ℕ)
  | roomList (error : UInt8) (rooms : Option (List MatchingRoomDataExternal))
  | signalingInfos (error : UInt8) (infos : Option RequestSignalingInfosReply)
  | signalingEstablished (error : UInt8)
  | activationConfirm (error : UInt8)
  | setRoomDataInternal (error : UInt8) (roomId : ℕ)
  | setRoomDataExternal (error : UInt8) (roomId : ℕ)
  | kickoutRoomMember (error : UInt8) (roomId : ℕ)

/-- What comes of a packet. -/
inductive Handled where
  | told (r : Result)
  /-- it is no reply, or no callback is for it -/
  | ignored
  /-- bytes past the end of the packet are read -/
  | overrun

/-- A handler that reads outside the payload tells nothing. -/
def Handled.ofOption {α : Type} (result : α → Result) : Option α → Handled
  | none => .overrun
  | some x => .told (result x)

/-- `handlePacket` on a reply. Whom a friend command was about is what the client has kept of its latest
one; the packet does not tell. -/
def handlePacket (r : Readers) (pendingFriendNpid : String) (p : GuestPacket) : Handled :=
  if p.type ≠ PacketType.reply.code then .ignored
  else
    let error := errorOf p.payload
    let friend (cmd : FriendCommandType) : Handled := .told (.friend cmd error pendingFriendNpid)
    match CommandType.ofCode p.command with
    | some .login => .ofOption .login (handleLoginReply r p.payload)
    | some .create => .told (.create error)
    | some .addFriend => friend .addFriend
    | some .removeFriend => friend .removeFriend
    | some .addBlock => friend .addBlock
    | some .removeBlock => friend .removeBlock
    | some .getBoardInfos => .ofOption .boardInfos (handleBoardInfosReply r p.payload)
    | some .recordScore => .told (.recordScore (handleRecordScoreReply p.payload))
    | some .recordScoreData => .told (.recordScoreData error)
    | some .getScoreData | some .getScoreGameDataByAccId =>
      .ofOption (fun x => .getScoreData x.1 x.2) (handleGetScoreDataReply p.payload)
    | some .getScoreRange | some .getScoreFriends | some .getScoreNpid | some .getScoreAccountId =>
      .ofOption .scoreRange (handleScoreRangeReply r p.payload)
    | some .registerHandlers => .told (.registerHandlers error)
    | some .createRoom => .ofOption (fun x => .createRoom x.1 x.2) (handleCreateRoomReply r p.payload)
    | some .joinRoom => .ofOption (fun x => .joinRoom x.1 x.2) (handleJoinRoomReply r p.payload)
    | some .leaveRoom => .ofOption (fun x => .leaveRoom x.1 x.2) (handleLeaveRoomReply r p.payload)
    | some .getRoomList => .ofOption (fun x => .roomList x.1 x.2) (handleRoomListReply r p.payload)
    | some .requestSignalingInfos =>
      .ofOption (fun x => .signalingInfos x.1 x.2) (handleSignalingInfosReply r p.payload)
    | some .signalingEstablished => .told (.signalingEstablished error)
    | some .activationConfirm => .told (.activationConfirm error)
    | some .setRoomDataInternal =>
      .ofOption (fun x => .setRoomDataInternal x.1 x.2) (handleSetRoomDataInternalReply r p.payload)
    | some .setRoomDataExternal =>
      .ofOption (fun x => .setRoomDataExternal x.1 x.2) (handleSetRoomDataExternalReply r p.payload)
    | some .kickoutRoomMember =>
      .ofOption (fun x => .kickoutRoomMember x.1 x.2) (handleKickoutRoomMemberReply r p.payload)
    | _ => .ignored

end ShadNet.SampleClient
