import ShadNet.Lib.Index
import ShadNet.Spec.Server

/-!
# Worlds and room search

`GetWorldInfoList` counts the rooms of each world, `SearchRoom` lists the rooms that pass its
filters. Both read the rooms through the lists by world and by lobby.
-/

namespace ShadNet

open Lib

/-! ## Worlds -/

/-- What `LoadWorldsCfg` keeps of a line of `worlds.cfg`. A line with world 0 is passed over. -/
structure WorldConfig where
  worldId : ℕ
  serverId : ℕ
  lobbiesNum : ℕ
  maxLobbyMembersNum : ℕ
  worldId_ne : worldId ≠ 0

/-- A world in the list of worlds, with what is in it. -/
structure MatchingWorld where
  worldId : ℕ
  lobbiesNum : ℕ
  maxLobbyMembers : ℕ
  lobbyMembersNum : ℕ
  roomsNum : ℕ
  roomMembersNum : ℕ

/-- The counts of rooms and members with one more room; an id without a room is passed over. Both
have 32 bits. -/
def countRoom (n : ℕ × ℕ) : Option Room → ℕ × ℕ
  | none => n
  | some room => ((n.1 + 1) % 2 ^ 32, (n.2 + room.members.size) % 2 ^ 32)

/-- Rooms and members of a world, counted over its list. -/
def countRoomsAndMembers (m : MatchingSharedState) (matchingKey : String) (worldId : ℕ) : ℕ × ℕ :=
  (m.worldRooms.listAt (matchingKey, worldId)).foldl
    (fun n rid => countRoom n (m.rooms.get? (matchingKey, rid))) (0, 0)

/-- The counts are taken from the rooms as they are. -/
def matchingWorld (m : MatchingSharedState) (matchingKey : String) (worldId lobbiesNum
    maxLobbyMembers : ℕ) : MatchingWorld where
  worldId := worldId
  lobbiesNum := lobbiesNum
  maxLobbyMembers := maxLobbyMembers
  lobbyMembersNum := 0
  roomsNum := (countRoomsAndMembers m matchingKey worldId).1
  roomMembersNum := (countRoomsAndMembers m matchingKey worldId).2

/-- The worlds of rooms under the key, or world 1. -/
def activeWorlds (m : MatchingSharedState) (order : Order (String × ℕ)) (matchingKey : String) :
    List ℕ :=
  let worldIds := (m.worldRooms.inOrder order).foldl (fun worldIds e =>
    if e.1.1 ≠ matchingKey ∨ e.1.2 ∈ worldIds then worldIds else worldIds ++ [e.1.2]) []
  if worldIds = [] then [1] else worldIds

/-- `worldConfigs` is read once, when the server starts. -/
def cmdGetWorldInfoList (worldConfigs : Table String (List WorldConfig))
    (order : Order (String × ℕ)) (s : MatchingState) :
    Option ℕ → Except ErrorType (List MatchingWorld)
  | none => .error .malformed
  | some serverId =>
    let serverId := serverId % 2 ^ 16
    let configs := (worldConfigs.get? s.own.matchingKey).getD []
    if configs ≠ [] then
      .ok ((configs.filter fun wc => serverId = 0 ∨ wc.serverId = serverId).map fun wc =>
        matchingWorld s.shared s.own.matchingKey wc.worldId wc.lobbiesNum wc.maxLobbyMembersNum)
    else
      .ok ((activeWorlds s.shared order s.own.matchingKey).map fun worldId =>
        matchingWorld s.shared s.own.matchingKey worldId 0 0)

/-- The server after the first `n` events, from a start that has read the title groups. -/
def configuredServerAfter (sv : Services) (db : Database) (titleGroups : Table String String)
    (events : List Event) (n : ℕ) : Server :=
  runAt (Server.step sv) { db, shared := { matching := { titleGroups } } } events n

/-! ## Search -/

/-- The flag that hides a room from searches. -/
def roomFlagHidden : UInt32 := 0x10000000

/-- A flag that searches do not look at. -/
def roomFlagNatTypeRestriction : UInt32 := 0x04000000

/-- A comparison with an integer attribute. -/
structure MatchingIntSearchFilter where
  attrId : ℕ
  op : ℕ
  attrValue : ℕ

/-- A comparison with the binary attribute. -/
structure MatchingBinSearchFilter where
  attrId : ℕ
  op : ℕ
  data : List UInt8

/-- What `SearchRoom` reads of its request. -/
structure SearchRoomRequest where
  worldId : ℕ := 0
  lobbyId : ℕ := 0
  rangeFilterStart : UInt32 := 0
  rangeFilterMax : UInt32 := 0
  flagFilter : UInt32 := 0
  flagAttr : UInt32 := 0
  intFilters : List MatchingIntSearchFilter := []
  binFilters : List MatchingBinSearchFilter := []
  attrIds : List ℕ := []

/-- The six comparisons; any other operation matches nothing. -/
def matchIntFilter (op roomValue filterValue : ℕ) : Bool :=
  match op with
  | 1 => roomValue = filterValue
  | 2 => roomValue ≠ filterValue
  | 3 => roomValue < filterValue
  | 4 => roomValue ≤ filterValue
  | 5 => filterValue < roomValue
  | 6 => filterValue ≤ roomValue
  | _ => false

/-- A filter without an attribute id is skipped, here and below. -/
def Room.passesIntFilter (room : Room) (f : MatchingIntSearchFilter) : Bool :=
  let id := f.attrId % 2 ^ 16
  if id = 0 then true
  else if id < searchableIntAttrExternal1 ∨ searchableIntAttrExternal8 < id then false
  else
    let slot := (room.searchIntAttr[id - searchableIntAttrExternal1]?).getD {}
    matchIntFilter f.op slot.value f.attrValue

/-- Other operations than 1 and 2 let every room pass. -/
def Room.passesBinFilter (room : Room) (f : MatchingBinSearchFilter) : Bool :=
  if f.attrId = 0 then true
  else if f.attrId % 2 ^ 16 ≠ searchableBinAttrExternal1 then false
  else
    let eq := decide (room.searchBinAttr.data = f.data)
    !((f.op = 1 && !eq) || (f.op = 2 && eq))

/-- A hidden room matches nothing, and the others have to pass flags and filters. -/
def roomMatchesFilters (room : Room) (req : SearchRoomRequest) : Bool :=
  let flagFilter := req.flagFilter &&& ~~~roomFlagNatTypeRestriction
  let flagAttr := req.flagAttr &&& ~~~roomFlagNatTypeRestriction
  room.flagAttr &&& roomFlagHidden = 0 && room.flagAttr &&& flagFilter = flagAttr &&
    req.intFilters.all room.passesIntFilter && req.binFilters.all room.passesBinFilter

/-- A room as those outside are told of it. -/
structure MatchingRoomDataExternal where
  maxSlot : ℕ
  curMembers : ℕ
  flags : UInt32
  serverId : ℕ
  worldId : ℕ
  lobbyId : ℕ
  roomId : ℕ
  passwdSlotMask : SlotMask
  joinedSlotMask : SlotMask
  publicSlots : ℕ
  privateSlots : ℕ
  openPublicSlots : ℕ
  openPrivateSlots : ℕ
  groups : List MatchingRoomGroup
  externalSearchIntAttrs : List MatchingIntAttr
  externalSearchBinAttrs : List MatchingBinAttr
  externalBinAttrs : List MatchingBinAttr
  /-- npid, account id and platform -/
  owner : Option (String × ℕ × ℕ)

/-- No list of attributes asks for all of them. -/
def attrWanted (requestedAttrIds : List ℕ) (attrId : ℕ) : Bool :=
  requestedAttrIds = [] ∨ attrId ∈ requestedAttrIds

/-- A room with the attributes that were asked for. -/
def buildRoomDataExternal (room : Room) (requestedAttrIds : List ℕ) :
    MatchingRoomDataExternal where
  maxSlot := room.maxSlot
  curMembers := room.members.size % 2 ^ 16
  flags := room.flagAttr
  serverId := room.serverId
  worldId := room.worldId
  lobbyId := room.lobbyId
  roomId := room.roomId
  passwdSlotMask := room.passwdSlotMask
  joinedSlotMask := room.joinedSlotMask
  publicSlots := room.publicSlots
  privateSlots := room.privateSlots
  openPublicSlots := room.openPublicSlots
  openPrivateSlots := room.openPrivateSlots
  groups := room.groups.map fillRoomGroup
  externalSearchIntAttrs :=
    (room.searchIntAttr.filter fun slot => slot.set && attrWanted requestedAttrIds slot.attrId).map
      fun slot => ⟨slot.attrId, slot.value⟩
  externalSearchBinAttrs :=
    if room.searchBinAttr.set && attrWanted requestedAttrIds room.searchBinAttr.attrId then
      [⟨room.searchBinAttr.attrId, room.searchBinAttr.data, 0, 0⟩]
    else []
  externalBinAttrs :=
    (room.externalBinAttr.filter fun slot => slot.set && attrWanted requestedAttrIds slot.attrId).map
      fun slot => ⟨slot.attrId, slot.data, 0, 0⟩
  owner := (room.findById room.ownerMemberId).map fun owner =>
    (owner.npid, accountId owner.userId, owner.platform)

/-- One page of a search, and where it lies in the whole. -/
structure SearchRoomReply where
  rooms : List MatchingRoomDataExternal
  rangeStart : ℕ
  rangeTotal : ℕ
  rangeResult : ℕ

/-- The ids to look at: the list of the world, else that of the lobby, else all under the key. -/
def searchCandidates (m : MatchingSharedState) (order : Order RoomKey) (matchingKey : String)
    (req : SearchRoomRequest) : List ℕ :=
  if req.worldId ≠ 0 then m.worldRooms.listAt (matchingKey, req.worldId)
  else if req.lobbyId ≠ 0 then m.lobbyRooms.listAt (matchingKey, req.lobbyId)
  else ((m.rooms.inOrder order).filter fun e => e.1.1 = matchingKey).map fun e => e.1.2

/-- The rooms that are counted; ids without a room are passed over. -/
def searchMatches (m : MatchingSharedState) (order : Order RoomKey) (matchingKey : String)
    (req : SearchRoomRequest) : List Room :=
  ((searchCandidates m order matchingKey req).filterMap fun rid =>
    m.rooms.get? (matchingKey, rid)).filter fun room => roomMatchesFilters room req

/-- Pages count from 1. -/
def SearchRoomRequest.rangeStart (req : SearchRoomRequest) : UInt32 :=
  if req.rangeFilterStart < 1 then 1 else req.rangeFilterStart

/-- A page has at most 20 rooms. -/
def SearchRoomRequest.rangeMax (req : SearchRoomRequest) : UInt32 :=
  if req.rangeFilterMax = 0 ∨ 20 < req.rangeFilterMax then 20 else req.rangeFilterMax

/-- The indices that the loop over the matches reads, from `i` on and `n` of them at most. The index
has 32 bits, and so has the size that it is compared with. -/
def searchIndices (size : UInt32) : ℕ → UInt32 → List UInt32
  | 0, _ => []
  | n + 1, i => if i < size then i :: searchIndices size n (i + 1) else []

/-- Which of the rooms that match are on the page. -/
def SearchRoomRequest.indices (req : SearchRoomRequest) (rooms : List Room) : List UInt32 :=
  searchIndices (UInt32.ofNat rooms.length) req.rangeMax.toNat (req.rangeStart - 1)

/-- `CmdSearchRoom`: one page of the rooms that match. -/
def cmdSearchRoom (order : Order RoomKey) (s : MatchingState) :
    Option SearchRoomRequest → Except ErrorType SearchRoomReply
  | none => .error .malformed
  | some req =>
    let rooms := searchMatches s.shared order s.own.matchingKey req
    let found := (req.indices rooms).filterMap fun i =>
      (rooms[i.toNat]?).map fun room => buildRoomDataExternal room (req.attrIds.map (· % 2 ^ 16))
    .ok ⟨found, req.rangeStart.toNat, rooms.length % 2 ^ 32, found.length⟩

end ShadNet
