import ShadNet.Spec.RoomSearch

/-!
# Users of rooms

What clients read of rooms and their members by id, what they publish about themselves, where
others can be reached, and messages to members of a room.
-/

namespace ShadNet

open Lib

/-- What users have published, by matching key and npid. -/
abbrev UserInfo := Table (String × String) (List BinAttrSlot)

/-- The addresses and ports that users were seen under, by npid. -/
abbrev UdpExt := Table String (String × ℕ)

/-! ## Rooms by id -/

/-- What the command reads of its request. -/
structure GetRoomDataExternalListRequest where
  roomIds : List ℕ
  attrIds : List ℕ

/-- Rooms that are not there are left out. -/
def cmdGetRoomDataExternalList (s : MatchingState) :
    Option GetRoomDataExternalListRequest → Except ErrorType (List MatchingRoomDataExternal)
  | none => .error .malformed
  | some req =>
    .ok ((req.roomIds.filterMap fun rid => s.shared.rooms.get? (s.own.matchingKey, rid)).map fun room =>
      buildRoomDataExternal room (req.attrIds.map (· % 2 ^ 16)))

/-- A member as those outside are told of him. -/
structure MatchingRoomMemberDataExternal where
  npid : String
  memberId : ℕ
  accountId : ℕ
  platform : ℕ
  joinDate : ℕ
  role : ℕ

/-- A member with his role in the room. -/
def buildRoomMemberDataExternal (room : Room) (member : RoomMember) :
    MatchingRoomMemberDataExternal where
  npid := member.npid
  memberId := member.memberId
  accountId := accountId member.userId
  platform := member.platform
  joinDate := member.joinDate
  role := if member.memberId = room.ownerMemberId then 2 else 1

/-- The request is the id of the room. -/
def cmdGetRoomMemberDataExternalList (s : MatchingState) :
    Option ℕ → Except ErrorType (List MatchingRoomMemberDataExternal)
  | none => .error .malformed
  | some roomId =>
    match s.shared.rooms.get? (s.own.matchingKey, roomId) with
    | none => .error .notFound
    | some room =>
      .ok ((room.members.keys.mergeSort (· ≤ ·)).filterMap fun memberId =>
        (room.members.get? memberId).map (buildRoomMemberDataExternal room))

/-! ## Users -/

/-- `SetUserInfo`; the request has a server id as well, which is not used. -/
def cmdSetUserInfo (info : ClientInfo) (own : MatchingSessionState) (userInfo : UserInfo) :
    Option (List MatchingBinAttr) → UserInfo × ErrorType
  | none => (userInfo, .malformed)
  | some attrs =>
    (userInfo.set (own.matchingKey, info.npid)
      (attrs.map fun src => ⟨true, src.attrId % 2 ^ 16, src.data⟩), .noError)

/-- What the command reads of its request. -/
structure GetUserInfoListRequest where
  npids : List String
  attrIds : List ℕ

/-- What is told of a user who was asked for. -/
structure MatchingUserInfo where
  npid : String
  accountId : ℕ := 0
  platform : ℕ := 0
  userBinAttrs : List MatchingBinAttr := []

/-- What is told of one user: as a member of the room, if he is one, and what he has published. -/
def matchingUserInfo (info : ClientInfo) (order : Order ℕ) (room : Option Room) (matchingKey : String)
    (userInfo : UserInfo) (attrIds : List ℕ) (npid : String) : MatchingUserInfo :=
  let user : MatchingUserInfo :=
    match room.bind fun room => room.findByNpid order npid with
    | none => { npid }
    | some member => { npid, accountId := accountId member.userId, platform := member.platform }
  match userInfo.get? (matchingKey, npid) with
  | none => user
  | some slots =>
    let user :=
      if user.accountId = 0 ∧ npid = info.npid then
        { user with accountId := accountId info.userId, platform := 3 }
      else user
    { user with
      userBinAttrs := (slots.filter fun slot => slot.set && attrWanted attrIds slot.attrId).map fun slot =>
        ⟨slot.attrId, slot.data, 0, 0⟩ }

/-- `CmdGetUserInfoList`: one entry for each npid that was asked for, in their order. -/
def cmdGetUserInfoList (info : ClientInfo) (order : Order ℕ) (s : MatchingState) (userInfo : UserInfo) :
    Option GetUserInfoListRequest → Except ErrorType (List MatchingUserInfo)
  | none => .error .malformed
  | some req =>
    let room := s.shared.rooms.get? (s.own.matchingKey, s.own.roomId)
    .ok (req.npids.map
      (matchingUserInfo info order room s.own.matchingKey userInfo (req.attrIds.map (· % 2 ^ 16))))

/-- Where the target is reached. -/
structure RequestSignalingInfosReply where
  targetNpid : String
  targetIp : String
  targetPort : ℕ
  targetMemberId : ℕ

/-- Where the target was seen, or else what its member in the first room under the key has. -/
def cmdRequestSignalingInfos (roomOrder : Order RoomKey) (order : Order ℕ) (s : MatchingState)
    (udpExt : UdpExt) : Option String → Except ErrorType RequestSignalingInfosReply
  | none => .error .malformed
  | some targetNpid =>
    let (ip, port) := (udpExt.get? targetNpid).getD ("", 0)
    let tm := (s.shared.rooms.inOrder roomOrder).findSome? fun e =>
      if e.1.1 ≠ s.own.matchingKey then none else e.2.findByNpid order targetNpid
    let memberId := (tm.map (·.memberId)).getD 0
    let (ip, port) := if ip = "" then (tm.map fun m => (m.addr, m.port)).getD (ip, port) else (ip, port)
    if ip = "" then .error .notFound else .ok ⟨targetNpid, ip, port, memberId⟩

/-! ## Messages -/

/-- A message to all members. -/
def matching2CasttypeBroadcast : ℕ := 1

/-- A message to one member. -/
def matching2CasttypeUnicast : ℕ := 2

/-- A message to the members that are named. -/
def matching2CasttypeMulticast : ℕ := 3

/-- The event that a message comes with. -/
def matching2RoomMsgEventMessage : ℕ := 0x2102

/-- What `SendRoomMessage` reads of its request. -/
structure SendRoomMessageRequest where
  roomId : ℕ
  castType : ℕ
  dstMemberIds : List ℕ
  msg : List UInt8

/-- What members are told of a message, still without a context. -/
structure NotifyRoomMessage where
  roomId : ℕ
  srcMemberId : ℕ
  event : ℕ
  castType : ℕ
  srcNpid : String
  srcAccountId : ℕ
  srcPlatform : ℕ
  msg : List UInt8
  dstMemberIds : List ℕ

/-- `addTarget`, for each of the members. -/
def addTargets (npid : String) (members : List RoomMember) : List RoomMember :=
  members.filter fun target => target.npid ≠ npid

/-- The members that a message goes to. -/
def Room.targets (room : Room) (order : Order ℕ) (npid : String) (castType : ℕ)
    (dstMemberIds : List ℕ) : Except ErrorType (List RoomMember) :=
  let byId (ids : List ℕ) := addTargets npid (ids.filterMap fun id => room.findById (id % 2 ^ 16))
  if castType = matching2CasttypeUnicast then
    if dstMemberIds = [] then .error .invalidInput
    else if byId (dstMemberIds.take 1) = [] then .error .notFound
    else .ok (byId (dstMemberIds.take 1))
  else if castType = matching2CasttypeMulticast then
    if byId dstMemberIds = [] then .error .notFound else .ok (byId dstMemberIds)
  else if castType = matching2CasttypeBroadcast then
    .ok (addTargets npid ((room.members.inOrder order).map Prod.snd))
  else .error .invalidInput

/-- The notification and the npids that it is sent to. -/
def cmdSendRoomMessage (info : ClientInfo) (order : Order ℕ) (s : MatchingState) :
    Option SendRoomMessageRequest → Except ErrorType (NotifyRoomMessage × List String)
  | none => .error .malformed
  | some req =>
    let castType := req.castType % 2 ^ 8
    match s.shared.rooms.get? (s.own.matchingKey, req.roomId) with
    | none => .error .roomMissing
    | some room =>
      match room.findByNpid order info.npid with
      | none => .error .roomMissing
      | some src =>
        match room.targets order info.npid castType req.dstMemberIds with
        | .error e => .error e
        | .ok targets =>
          .ok (⟨req.roomId, src.memberId, matching2RoomMsgEventMessage, castType, src.npid,
            accountId src.userId, src.platform, req.msg, targets.map (·.memberId)⟩,
            targets.map (·.npid))

/-- What a client is sent of a message, through the entry of its user. -/
structure SentRoomMessage where
  userId : ℤ
  conn : ConnId
  ctxId : ℕ
  message : NotifyRoomMessage

/-- There is nothing to send to a client without a context. -/
def sendMatchingNotification (sh : SharedState) (n : NotifyRoomMessage) (targetNpid : String) :
    Option SentRoomMessage :=
  match sh.npidToUserId.get? targetNpid with
  | none => none
  | some userId =>
    match sh.clients.get? userId with
    | none => none
    | some client =>
      if client.matchingContextId ≠ 0 then
        some ⟨userId, client.send, client.matchingContextId, n⟩
      else none

/-- The messages to those of the targets who are online. -/
def sendRoomMessages (sh : SharedState) (n : NotifyRoomMessage) (targetNpids : List String) :
    List SentRoomMessage := targetNpids.filterMap (sendMatchingNotification sh n)

end ShadNet
