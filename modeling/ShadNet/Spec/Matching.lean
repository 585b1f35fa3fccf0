import ShadNet.Spec.Protocol
import ShadNet.Spec.Room

/-!
# Matching commands

What all connections share of the matching service, what each keeps for itself, and the commands
that create, enter, leave and change rooms. A command takes what its connection knows of its
user, and gives the new state, the error byte and the reply.
-/

namespace ShadNet

open Lib

/-- What a connection knows of its user. -/
structure ClientInfo where
  userId : ℤ := 0
  npid : String := ""
  avatarUrl : String := ""
  token : String := ""
  admin : Bool := false
  statAgent : Bool := false
  banned : Bool := false

/-- The connection's own view of the matching service. -/
structure MatchingSessionState where
  ctxId : ℕ := 0
  titleId : String := ""
  matchingKey : String := ""
  serverId : ℕ := 1
  worldId : ℕ := 1
  lobbyId : ℕ := 0
  roomId : ℕ := 0
  myMemberId : ℕ := 0
  isRoomOwner : Bool := false
  maxSlots : ℕ := 0
  roomFlags : UInt32 := 0
  initialized : Bool := false

/-- A matching key and a room id. -/
abbrev RoomKey := String × ℕ

/-- What the connections share. The room counter has 64 bits in the source; it does not run
over. -/
structure MatchingSharedState where
  rooms : Table RoomKey Room := ∅
  /-- matching key and world to room ids -/
  worldRooms : Table (String × ℕ) (List ℕ) := ∅
  /-- matching key and lobby to room ids -/
  lobbyRooms : Table (String × ℕ) (List ℕ) := ∅
  nextRoomId : ℕ := 1
  titleGroups : Table String String := ∅

/-- The tables that all sessions share, and what the session keeps for itself. -/
structure MatchingState where
  shared : MatchingSharedState
  own : MatchingSessionState

/-- What a command takes from its surroundings: the order in which it iterates over members, the
time, and where the client can be reached. -/
structure MatchingEnv where
  order : Order ℕ
  now : ℕ
  addr : String
  port : ℕ

/-- The replies of the room commands, before they are serialised. -/
inductive MatchingReply where
  | createRoom (roomId serverId worldId lobbyId memberId maxSlots : ℕ) (flags : UInt32)
      (curMembers : ℕ) (details : CreateJoinRoomResponse)
  | joinRoom (roomId memberId maxSlots : ℕ) (flags : UInt32) (curMembers : ℕ)
      (details : CreateJoinRoomResponse)
  /-- of the other commands -/
  | room (roomId : ℕ)

/-- The state after a room command, its error, and its reply if there is one. -/
abbrev MatchingResult := MatchingState × ErrorType × Option MatchingReply

/-- The room is written under its key. -/
def MatchingSharedState.setRoom (m : MatchingSharedState) (key : RoomKey) (room : Room) :
    MatchingSharedState :=
  { m with rooms := m.rooms.set key room }

/-- The room is gone, and listed no more. -/
def MatchingSharedState.eraseRoom (m : MatchingSharedState) (key : RoomKey) (room : Room) :
    MatchingSharedState :=
  let m := { m with rooms := m.rooms.del key }
  if room.worldId ≠ 0 then
    let l := (m.worldRooms.get? (key.1, room.worldId)).getD []
    { m with worldRooms := m.worldRooms.set (key.1, room.worldId) (l.filter (· ≠ key.2)) }
  else if room.lobbyId ≠ 0 then
    let l := (m.lobbyRooms.get? (key.1, room.lobbyId)).getD []
    { m with lobbyRooms := m.lobbyRooms.set (key.1, room.lobbyId) (l.filter (· ≠ key.2)) }
  else m

/-- A new room is stored, and listed by its world or by its lobby. -/
def MatchingSharedState.insertRoom (m : MatchingSharedState) (key : RoomKey) (room : Room) :
    MatchingSharedState :=
  let m := m.setRoom key room
  if room.worldId ≠ 0 then
    let l := (m.worldRooms.get? (key.1, room.worldId)).getD []
    { m with worldRooms := m.worldRooms.set (key.1, room.worldId) (l ++ [key.2]) }
  else if room.lobbyId ≠ 0 then
    let l := (m.lobbyRooms.get? (key.1, room.lobbyId)).getD []
    { m with lobbyRooms := m.lobbyRooms.set (key.1, room.lobbyId) (l ++ [key.2]) }
  else m

/-! ## Context -/

/-- The session is in no room any more. -/
def resetLocalMatchingRoomState (own : MatchingSessionState) : MatchingSessionState :=
  { own with roomId := 0, myMemberId := 0, isRoomOwner := false, maxSlots := 0, roomFlags := 0 }

/-- Only the room that the session remembers is forgotten. -/
def resetMatchingRoomState (own : MatchingSessionState) (roomId : ℕ) : MatchingSessionState :=
  if roomId = 0 ∨ own.roomId ≠ roomId then own else resetLocalMatchingRoomState own

/-- What Create and Join note of the room that they have entered. -/
def enterRoom (own : MatchingSessionState) (room : Room) (memberId : ℕ) (isRoomOwner : Bool) :
    MatchingSessionState :=
  { own with
    roomId := room.roomId
    myMemberId := memberId
    isRoomOwner := isRoomOwner
    maxSlots := room.maxSlot
    roomFlags := room.flagAttr
    serverId := room.serverId
    worldId := room.worldId % 2 ^ 16
    lobbyId := room.lobbyId % 2 ^ 16 }

/-! ## CreateRoom -/

/-- A group as the request for a room describes it. -/
structure MatchingRoomGroupConfig where
  slotCount : ℕ
  hasPasswd : Bool
  hasLabel : Bool
  label : List UInt8

/-- What `CreateRoom` reads of its request. -/
structure CreateRoomRequest where
  maxSlots : ℕ
  teamId : ℕ := 0
  worldId : ℕ := 0
  lobbyId : ℕ := 0
  flags : UInt32 := 0
  groupConfigCount : ℕ := 0
  externalSearchIntAttrs : List MatchingIntAttr := []
  externalSearchBinAttrs : List MatchingBinAttr := []
  externalBinAttrs : List MatchingBinAttr := []
  memberBinAttrs : List MatchingBinAttr := []
  joinGroupLabelPresent : Bool := false
  roomPasswordPresent : Bool := false
  sigType : ℕ := 0
  sigFlag : ℕ := 0
  sigMainMember : ℕ := 0
  internalBinAttrs : List MatchingBinAttr := []
  allowedOnlineIds : List String := []
  blockedOnlineIds : List String := []
  allowedAccountIds : List ℕ := []
  blockedAccountIds : List ℕ := []
  groupConfigs : List MatchingRoomGroupConfig := []
  roomPassword : List UInt8 := []
  hasPasswdSlotMask : Bool := false
  passwdSlotMask : SlotMask := 0
  joinGroupLabel : List UInt8 := []

/-- The attribute ids of a room. -/
def searchableIntAttrExternal1 : ℕ := 0x4C

/-- The last of the eight integer attributes that searches may ask for. -/
def searchableIntAttrExternal8 : ℕ := 0x53

/-- The only binary attribute that searches may ask for. -/
def searchableBinAttrExternal1 : ℕ := 0x54

/-- The first binary attribute that is shown to everybody. -/
def roomBinAttrExternal1 : ℕ := 0x55

/-- Id of the second binary attribute for those outside. -/
def roomBinAttrExternal2 : ℕ := 0x56

/-- The first binary attribute that is shown to members only. -/
def roomBinAttrInternal1 : ℕ := 0x57

/-- Id of the second binary attribute for the members. -/
def roomBinAttrInternal2 : ℕ := 0x58

/-- The place of an internal attribute in the room. -/
def internalBinIndexForAttr (attrId : ℕ) : Option ℕ :=
  if attrId = roomBinAttrInternal1 then some 0
  else if attrId = roomBinAttrInternal2 then some 1
  else none

/-- The place of an external attribute in the room. -/
def externalBinIndexForAttr (attrId : ℕ) : Option ℕ :=
  if attrId = roomBinAttrExternal1 then some 0
  else if attrId = roomBinAttrExternal2 then some 1
  else none

/-- Attributes with other ids are passed over. -/
def applySearchIntAttr (room : Room) (a : MatchingIntAttr) : Room :=
  let attrId := a.attrId % 2 ^ 16
  if attrId < searchableIntAttrExternal1 ∨ searchableIntAttrExternal8 < attrId then room
  else { room with
    searchIntAttr := room.searchIntAttr.set (attrId - searchableIntAttrExternal1)
      ⟨true, attrId, a.attrValue⟩ }

/-- An internal attribute is kept with the time of the update and the member who made it. -/
def setInternalBinAttr (room : Room) (idx attrId : ℕ) (a : MatchingBinAttr) (now memberId : ℕ) :
    Room :=
  { room with internalBinAttr := room.internalBinAttr.set idx ⟨true, attrId, a.data, now, memberId⟩ }

/-- An external attribute is kept with its id alone. -/
def setExternalBinAttr (room : Room) (idx attrId : ℕ) (a : MatchingBinAttr) : Room :=
  { room with externalBinAttr := room.externalBinAttr.set idx ⟨true, attrId, a.data⟩ }

/-- An attribute goes where its id belongs, whichever list of the request it stands in. -/
def applyCreateBinAttr (member : RoomMember) (room : Room) (a : MatchingBinAttr) : Room :=
  let attrId := a.attrId % 2 ^ 16
  match internalBinIndexForAttr attrId with
  | some idx => setInternalBinAttr room idx attrId a member.joinDate member.memberId
  | none =>
    match externalBinIndexForAttr attrId with
    | some idx => setExternalBinAttr room idx attrId a
    | none =>
      if attrId = searchableBinAttrExternal1 then
        { room with searchBinAttr := ⟨true, attrId, a.data⟩ }
      else room

/-- Group number `g` of a new room. -/
def createGroup (req : CreateRoomRequest) (g : ℕ) : RoomGroup :=
  match req.groupConfigs[g]? with
  | some cfg =>
    { groupId := (g + 1) % 2 ^ 8
      slotNum := cfg.slotCount
      withPassword := cfg.hasPasswd
      fixedLabel := cfg.hasLabel
      label := if cfg.hasLabel then some cfg.label else none }
  | none =>
    { groupId := (g + 1) % 2 ^ 8
      withPassword := req.roomPasswordPresent
      fixedLabel := req.joinGroupLabelPresent
      label := if req.joinGroupLabel = [] then none else some req.joinGroupLabel }

/-- The groups are those of the configurations, or as many as the count says if there are none. -/
def createGroups (req : CreateRoomRequest) : List RoomGroup :=
  let groupCount := if req.groupConfigs = [] then req.groupConfigCount else req.groupConfigs.length
  (List.range groupCount).map (createGroup req)

/-- Which group the owner joins: the first with the label asked for, or the first of all. -/
def ownerGroup (req : CreateRoomRequest) (groups : List RoomGroup) : ℕ :=
  if req.joinGroupLabel = [] then 0
  else (groups.findIdx? fun g => g.label = some req.joinGroupLabel).getD 0

/-- The member that comes with a request: its first attribute is kept. -/
def memberBinAttrOf (attrs : List MatchingBinAttr) (joinDate : ℕ) : MemberBinAttrSlot :=
  match attrs with
  | [] => {}
  | a :: _ => ⟨true, a.attrId % 2 ^ 16, a.data, joinDate⟩

/-- A password that is said to be there and is not sent has eight zero bytes. -/
def createPassword (req : CreateRoomRequest) : Option (List UInt8) :=
  if req.roomPassword ≠ [] then some req.roomPassword
  else if req.roomPasswordPresent then some (List.replicate 8 0)
  else none

/-- The room before its owner is in. -/
def createEmptyRoom (own : MatchingSessionState) (rid : ℕ) (req : CreateRoomRequest) : Room :=
  let maxSlot := req.maxSlots % 2 ^ 16
  let room : Room :=
    { roomId := rid
      maxSlot := if maxSlot < 1 then 1 else maxSlot
      serverId := own.serverId
      worldId := if req.worldId ≠ 0 then req.worldId else own.worldId
      lobbyId := if req.lobbyId ≠ 0 then req.lobbyId else own.lobbyId
      flagAttr := req.flags &&& ~~~roomFlagFull
      signalingType := req.sigType % 2 ^ 8
      signalingFlag := req.sigFlag % 2 ^ 8
      signalingHubMemberId := req.sigMainMember % 2 ^ 16
      allowedUsers := req.allowedOnlineIds
      blockedUsers := req.blockedOnlineIds
      allowedAccountIds := req.allowedAccountIds
      blockedAccountIds := req.blockedAccountIds
      roomPassword := createPassword req
      passwdSlotMask := if req.hasPasswdSlotMask then req.passwdSlotMask else 0
      groups := createGroups req }
  req.externalSearchIntAttrs.foldl applySearchIntAttr room

/-- The member that the creator becomes, with the flag of the owner. -/
def createOwner (info : ClientInfo) (env : MatchingEnv) (req : CreateRoomRequest)
    (groups : List RoomGroup) : RoomMember :=
  { userId := info.userId
    npid := info.npid
    addr := env.addr
    port := env.port
    joinDate := env.now
    teamId := req.teamId % 2 ^ 8
    flagAttr := roomMemberFlagOwner
    groupId := ((groups[ownerGroup req groups]?).map (·.groupId)).getD 0
    memberBinAttr := memberBinAttrOf req.memberBinAttrs env.now }

/-- The room with its owner, and the owner's place in it. -/
def createdRoom (info : ClientInfo) (env : MatchingEnv) (own : MatchingSessionState) (rid : ℕ)
    (req : CreateRoomRequest) : Room × RoomMember :=
  let room := createEmptyRoom own rid req
  let owner := createOwner info env req room.groups
  let room := { room with
    groups := room.groups.modify (ownerGroup req room.groups) fun g =>
      { g with numMembers := g.numMembers + 1 } }
  let member := room.newMember owner
  let room := { room.addMember owner with ownerMemberId := member.memberId }
  -- the three lists are applied alike, one after another
  let room := req.internalBinAttrs.foldl (applyCreateBinAttr member) room
  let room := req.externalSearchBinAttrs.foldl (applyCreateBinAttr member) room
  let room := req.externalBinAttrs.foldl (applyCreateBinAttr member) room
  (recomputeRoomSlotCounts room, member)

/-- `CmdCreateRoom`: the room takes the next id, and the session remembers it. -/
def cmdCreateRoom (info : ClientInfo) (env : MatchingEnv) (s : MatchingState) :
    Option CreateRoomRequest → MatchingResult
  | none => (s, .malformed, none)
  | some req =>
    let rid := s.shared.nextRoomId
    let (room, member) := createdRoom info env s.own rid req
    let shared := { s.shared with nextRoomId := rid + 1 }
    (⟨shared.insertRoom (s.own.matchingKey, rid) room, enterRoom s.own room member.memberId true⟩,
      .noError,
      some (.createRoom rid room.serverId room.worldId (room.lobbyId % 2 ^ 32) member.memberId
        room.maxSlot room.flagAttr 1 (buildCreateJoinResponse room member)))

/-! ## JoinRoom -/

/-- What `JoinRoom` reads of its request. -/
structure JoinRoomRequest where
  roomId : ℕ
  teamId : ℕ := 0
  memberBinAttrs : List MatchingBinAttr := []
  blockedOnlineIds : List String := []
  blockedAccountIds : List ℕ := []

/-- The member that the caller would become, before he has an id and a slot. -/
def createJoiner (info : ClientInfo) (env : MatchingEnv) (req : JoinRoomRequest) : RoomMember :=
  { userId := info.userId
    npid := info.npid
    addr := env.addr
    port := env.port
    blockedUsers := req.blockedOnlineIds
    blockedAccountIds := req.blockedAccountIds
    joinDate := env.now
    teamId := req.teamId % 2 ^ 8
    memberBinAttr := memberBinAttrOf req.memberBinAttrs env.now }

/-- The room's lists keep the user out. -/
def Room.refuses (room : Room) (info : ClientInfo) : Bool :=
  (room.allowedUsers ≠ [] ∧ info.npid ∉ room.allowedUsers) ∨
  (room.allowedAccountIds ≠ [] ∧ accountId info.userId ∉ room.allowedAccountIds) ∨
  info.npid ∈ room.blockedUsers ∨ accountId info.userId ∈ room.blockedAccountIds

/-- One of two members blocks the other. -/
def RoomMember.blocks (joiner member : RoomMember) : Bool :=
  member.npid ∈ joiner.blockedUsers ∨ accountId member.userId ∈ joiner.blockedAccountIds ∨
  joiner.npid ∈ member.blockedUsers ∨ accountId joiner.userId ∈ member.blockedAccountIds

/-- What `JoinRoom` makes of a room that has let the joiner in. -/
def Room.join (room : Room) (joiner : RoomMember) : Room :=
  let room := recomputeRoomSlotCounts (room.addMember joiner)
  if room.maxSlot ≤ room.members.size % 2 ^ 16 then
    { room with flagAttr := room.flagAttr ||| roomFlagFull }
  else room

/-- `CmdJoinRoom`: the room has to be there under the caller's title, and takes the member in or
says why not. -/
def cmdJoinRoom (info : ClientInfo) (env : MatchingEnv) (s : MatchingState) :
    Option JoinRoomRequest → MatchingResult
  | none => (s, .malformed, none)
  | some req =>
    match s.shared.rooms.get? (s.own.matchingKey, req.roomId) with
    | none => (s, .roomMissing, none)
    | some room =>
      let joiner := createJoiner info env req
      if room.isFull then (s, .roomFull, none)
      else if (room.findByNpid env.order info.npid).isSome then (s, .roomAlreadyJoined, none)
      else if room.refuses info then (s, .blocked, none)
      else if (room.members.inOrder env.order).any fun e => joiner.blocks e.2 then
        (s, .blocked, none)
      else
        let member := room.newMember joiner
        let room := room.join joiner
        (⟨s.shared.setRoom (s.own.matchingKey, req.roomId) room,
            { enterRoom s.own room member.memberId false with roomId := req.roomId }⟩,
          .noError,
          some (.joinRoom req.roomId member.memberId room.maxSlot room.flagAttr
            (room.members.size % 2 ^ 16) (buildCreateJoinResponse room member)))

/-! ## LeaveRoom -/

/-- The loop over `ownerSuccession`: candidates are taken off until one is a member. -/
def takeSuccessor (room : Room) : List ℕ → ℕ × List ℕ
  | [] => (0, [])
  | cand :: rest => if (room.findById cand).isSome then (cand, rest) else takeSuccessor room rest

/-- A new owner for a room that its owner has left: a successor that was named, or the first
member in the order of the iteration. -/
def Room.passOwner (room : Room) (order : Order ℕ) : Room :=
  let (newOwner, rest) := takeSuccessor room room.ownerSuccession
  let newOwner :=
    if newOwner = 0 then (((room.members.inOrder order).head?).map fun e => e.2.memberId).getD 0
    else newOwner
  { room with
    ownerSuccession := rest
    ownerMemberId := newOwner
    members := room.members.modify newOwner fun m =>
      { m with flagAttr := m.flagAttr ||| roomMemberFlagOwner } }

/-- A member is taken out, by its own will or not. -/
def Room.dropMember (room : Room) (memberId : ℕ) : Room :=
  { room.removeMember memberId with
    ownerSuccession := room.ownerSuccession.filter (· ≠ memberId) }

/-- What a departure leaves of a room that is not empty. -/
def Room.afterLeave (room : Room) (order : Order ℕ) (wasOwner : Bool) : Room :=
  let room := recomputeRoomSlotCounts room
  let room := { room with flagAttr := room.flagAttr &&& ~~~roomFlagFull }
  if wasOwner then room.passOwner order else room

/-- What `CmdLeaveRoom` and `DoLeaveRoom` do under the lock: nothing if the user is not in the
room, else the state without him and the id that he had. -/
def leaveRoom (m : MatchingSharedState) (key : RoomKey) (npid : String) (order : Order ℕ) :
    Option (MatchingSharedState × ℕ) :=
  match m.rooms.get? key with
  | none => none
  | some room =>
    match room.findByNpid order npid with
    | none => none
    | some me =>
      let wasOwner := decide (me.memberId = room.ownerMemberId)
      let left := room.dropMember me.memberId
      if left.isEmpty then some (m.eraseRoom key room, me.memberId)
      else some (m.setRoom key (left.afterLeave order wasOwner), me.memberId)

/-- `CmdLeaveRoom`: the session forgets the room, and the room goes with its last member. -/
def cmdLeaveRoom (info : ClientInfo) (env : MatchingEnv) (s : MatchingState) :
    Option ℕ → MatchingResult
  | none => (s, .malformed, none)
  | some roomId =>
    match leaveRoom s.shared (s.own.matchingKey, roomId) info.npid env.order with
    | none => (s, .roomMissing, none)
    | some (shared, _) =>
      (⟨shared, resetMatchingRoomState s.own roomId⟩, .noError, some (.room roomId))

/-- The client leaves the room when it goes, without a reply. -/
def doLeaveRoom (info : ClientInfo) (order : Order ℕ) (s : MatchingState) (roomId : ℕ) :
    MatchingState :=
  match leaveRoom s.shared (s.own.matchingKey, roomId) info.npid order with
  | none => s
  | some (shared, _) => ⟨shared, resetMatchingRoomState s.own roomId⟩

/-- Only the room that the session remembers is left, and only if a context was started. -/
def cleanupMatchingOnDisconnect (info : ClientInfo) (order : Order ℕ) (s : MatchingState) :
    MatchingState :=
  if !s.own.initialized then s
  else if s.own.roomId ≠ 0 then doLeaveRoom info order s s.own.roomId
  else s

/-! ## KickoutRoomMember -/

/-- What `KickoutRoomMember` reads of its request. -/
structure KickoutRoomMemberRequest where
  roomId : ℕ
  targetMemberId : ℕ
  blockKickFlag : ℕ

/-- What a kick leaves of a room. -/
def Room.kick (room : Room) (target : RoomMember) (targetMemberId blockKickFlag : ℕ) : Room :=
  let room :=
    if blockKickFlag ≠ 0 ∧ target.npid ∉ room.blockedUsers then
      { room with blockedUsers := room.blockedUsers ++ [target.npid] }
    else room
  let room := recomputeRoomSlotCounts (room.dropMember targetMemberId)
  { room with flagAttr := room.flagAttr &&& ~~~roomFlagFull }

/-- `CmdKickoutRoomMember`: the target leaves, and may be kept from coming back. -/
def cmdKickoutRoomMember (info : ClientInfo) (env : MatchingEnv) (s : MatchingState) :
    Option KickoutRoomMemberRequest → MatchingResult
  | none => (s, .malformed, none)
  | some req =>
    let targetMemberId := req.targetMemberId % 2 ^ 16
    match s.shared.rooms.get? (s.own.matchingKey, req.roomId) with
    | none => (s, .roomMissing, none)
    | some room =>
      match room.findByNpid env.order info.npid with
      | none => (s, .roomMissing, none)
      | some initiator =>
        if room.ownerMemberId ≠ initiator.memberId then (s, .unauthorized, none)
        else if targetMemberId = 0 ∨ targetMemberId = initiator.memberId then
          (s, .invalidInput, none)
        else match room.findById targetMemberId with
          | none => (s, .notFound, none)
          | some target =>
            let room := room.kick target targetMemberId req.blockKickFlag
            ({ s with shared := s.shared.setRoom (s.own.matchingKey, req.roomId) room },
              .noError, some (.room req.roomId))

/-! ## SetRoomData -/

/-- What `SetRoomDataInternal` reads of its request. -/
structure SetRoomDataInternalRequest where
  roomId : ℕ
  flagFilter : UInt32
  flagAttr : UInt32
  binAttrs : List MatchingBinAttr
  hasPasswdMask : Bool
  passwdSlotMask : SlotMask

/-- An internal attribute; others are passed over. -/
def applyInternalBinAttr (now setterId : ℕ) (room : Room) (a : MatchingBinAttr) : Room :=
  let attrId := a.attrId % 2 ^ 16
  match internalBinIndexForAttr attrId with
  | none => room
  | some idx => setInternalBinAttr room idx attrId a now setterId

/-- The flags under the filter, the mask of the slots behind the password, and the internal
attributes are written; the flag for a full room is the server's own. -/
def Room.setDataInternal (room : Room) (req : SetRoomDataInternalRequest) (now setterId : ℕ) :
    Room :=
  let effFilter := req.flagFilter &&& ~~~roomFlagFull
  let room := { room with
    flagAttr := (room.flagAttr &&& ~~~effFilter) ||| (req.flagAttr &&& effFilter) }
  let room :=
    if req.hasPasswdMask then
      recomputeRoomSlotCounts { room with passwdSlotMask := req.passwdSlotMask }
    else room
  req.binAttrs.foldl (applyInternalBinAttr now setterId) room

/-- The sender need not be a member of the room. -/
def cmdSetRoomDataInternal (info : ClientInfo) (env : MatchingEnv) (s : MatchingState) :
    Option SetRoomDataInternalRequest → MatchingResult
  | none => (s, .malformed, none)
  | some req =>
    match s.shared.rooms.get? (s.own.matchingKey, req.roomId) with
    | none => (s, .roomMissing, none)
    | some room =>
      -- an attribute set from outside is noted under member id 0
      let setterId := ((room.findByNpid env.order info.npid).map (·.memberId)).getD 0
      let room := room.setDataInternal req env.now setterId
      ({ s with shared := s.shared.setRoom (s.own.matchingKey, req.roomId) room },
        .noError, some (.room req.roomId))

/-- What `SetRoomDataExternal` reads of its request. -/
structure SetRoomDataExternalRequest where
  roomId : ℕ
  searchIntAttrs : List MatchingIntAttr
  searchBinAttrs : List MatchingBinAttr
  extBinAttrs : List MatchingBinAttr

/-- Other ids than the searchable one are passed over. -/
def applySearchBinAttr (room : Room) (a : MatchingBinAttr) : Room :=
  let attrId := a.attrId % 2 ^ 16
  if attrId ≠ searchableBinAttrExternal1 then room
  else { room with searchBinAttr := ⟨true, attrId, a.data⟩ }

/-- Ids that are no external attribute are passed over. -/
def applyExternalBinAttr (room : Room) (a : MatchingBinAttr) : Room :=
  let attrId := a.attrId % 2 ^ 16
  match externalBinIndexForAttr attrId with
  | none => room
  | some idx => setExternalBinAttr room idx attrId a

/-- The three lists of a request, one after the other. -/
def Room.setDataExternal (room : Room) (req : SetRoomDataExternalRequest) : Room :=
  let room := req.searchIntAttrs.foldl applySearchIntAttr room
  let room := req.searchBinAttrs.foldl applySearchBinAttr room
  req.extBinAttrs.foldl applyExternalBinAttr room

/-- Whether the caller is in the room is not asked. -/
def cmdSetRoomDataExternal (s : MatchingState) : Option SetRoomDataExternalRequest → MatchingResult
  | none => (s, .malformed, none)
  | some req =>
    match s.shared.rooms.get? (s.own.matchingKey, req.roomId) with
    | none => (s, .roomMissing, none)
    | some room =>
      let room := room.setDataExternal req
      ({ s with shared := s.shared.setRoom (s.own.matchingKey, req.roomId) room },
        .noError, some (.room req.roomId))

end ShadNet
