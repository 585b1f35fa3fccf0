import Mathlib.Algebra.Group.Int.Defs
import Mathlib.Algebra.Group.Nat.Defs
import ShadNet.Lib.Table

/-!
# Rooms

A room of the matching service: its members, who sit in slots that their ids name, and the
slot counts that are told to clients.
-/

namespace ShadNet

open Lib

/-- One bit for each slot. -/
abbrev SlotMask := BitVec 64

/-- The flag that the server sets while a room is full. -/
def roomFlagFull : UInt32 := 0x20000000

/-- The flag of the member that owns the room. -/
def roomMemberFlagOwner : UInt32 := 0x80000000

/-- An integer attribute that searches ask for. -/
structure IntAttrSlot where
  set : Bool := false
  attrId : ℕ := 0
  value : ℕ := 0

/-- A binary attribute that everybody sees. -/
structure BinAttrSlot where
  set : Bool := false
  attrId : ℕ := 0
  data : List UInt8 := []

/-- A binary attribute that members see, with its last update. -/
structure InternalBinAttrSlot where
  set : Bool := false
  attrId : ℕ := 0
  data : List UInt8 := []
  updateDate : ℕ := 0
  updateMemberId : ℕ := 0

/-- A binary attribute of a member. -/
structure MemberBinAttrSlot where
  set : Bool := false
  attrId : ℕ := 0
  data : List UInt8 := []
  updateDate : ℕ := 0

/-- A group of slots; whether a password is asked for is one flag for all its slots. -/
structure RoomGroup where
  groupId : ℕ := 0
  slotNum : ℕ := 0
  label : Option (List UInt8) := none
  fixedLabel : Bool := false
  withPassword : Bool := false
  numMembers : ℕ := 0

/-- A member, as the server keeps him. -/
structure RoomMember where
  memberId : ℕ := 0
  userId : ℤ := 0
  npid : String := ""
  addr : String := ""
  port : ℕ := 0
  platform : ℕ := 3
  blockedUsers : List String := []
  blockedAccountIds : List ℕ := []
  joinDate : ℕ := 0
  flagAttr : UInt32 := 0
  teamId : ℕ := 0
  groupId : ℕ := 0
  natType : ℕ := 0
  memberBinAttr : MemberBinAttrSlot := {}

/-- A room with its members, under their ids. -/
structure Room where
  roomId : ℕ := 0
  serverId : ℕ := 1
  worldId : ℕ := 0
  lobbyId : ℕ := 0
  maxSlot : ℕ := 0
  publicSlots : ℕ := 0
  privateSlots : ℕ := 0
  openPublicSlots : ℕ := 0
  openPrivateSlots : ℕ := 0
  passwdSlotMask : SlotMask := 0
  flagAttr : UInt32 := 0
  roomPassword : Option (List UInt8) := none
  allowedUsers : List String := []
  blockedUsers : List String := []
  allowedAccountIds : List ℕ := []
  blockedAccountIds : List ℕ := []
  ownerMemberId : ℕ := 0
  ownerSuccession : List ℕ := []
  groups : List RoomGroup := []
  /-- eight of them -/
  searchIntAttr : List IntAttrSlot := List.replicate 8 {}
  searchBinAttr : BinAttrSlot := {}
  /-- two of them -/
  externalBinAttr : List BinAttrSlot := List.replicate 2 {}
  /-- two of them -/
  internalBinAttr : List InternalBinAttrSlot := List.replicate 2 {}
  signalingType : ℕ := 0
  signalingFlag : ℕ := 0
  signalingHubMemberId : ℕ := 0
  members : Table ℕ RoomMember := ∅
  memberIdCounter : ℕ := 0

/-- `static_cast<uint64_t>` of a user id. -/
def accountId (userId : ℤ) : ℕ := (userId % 2 ^ 64).toNat

/-! ## Members -/

/-- The slot that a member id names. -/
def slotOf (memberId : ℕ) : ℕ := memberId >>> 4

namespace Room

variable (room : Room)

/-- The member with the id. -/
def findById (memberId : ℕ) : Option RoomMember := room.members.get? memberId

/-- The slot is a member's. -/
def taken (slot : ℕ) : Bool := (room.members.inOrder .listed).any fun e => slotOf e.2.memberId = slot

/-- The first slot that nobody has, or 65. -/
def freeSlot : ℕ := ((List.range' 1 64).find? fun slot => !room.taken slot).getD 65

/-- The counter of member ids has four bits. -/
def nextCounter : ℕ := (room.memberIdCounter + 1) &&& 0xF

/-- A member id is the slot, with the counter below it. -/
def allocMemberId : ℕ := ((room.freeSlot <<< 4) ||| room.nextCounter) % 2 ^ 16

/-- The member that `addMember` puts in. -/
def newMember (proto : RoomMember) : RoomMember := { proto with memberId := room.allocMemberId }

/-- The member comes in under the next id. -/
def addMember (proto : RoomMember) : Room :=
  { room with
    members := room.members.set room.allocMemberId (room.newMember proto)
    memberIdCounter := room.nextCounter }

/-- The first in the order of the iteration, here and below. -/
def findByNpid (order : Order ℕ) (npid : String) : Option RoomMember :=
  ((room.members.inOrder order).find? fun e => e.2.npid = npid).map Prod.snd

/-- The member goes, and his slot is free. -/
def removeMember (memberId : ℕ) : Room := { room with members := room.members.del memberId }

/-- There are no members. -/
def isEmpty : Bool := room.members.size = 0

/-- As many members as slots. -/
def isFull : Bool := room.maxSlot ≤ room.members.size

/-- The slots of the members, as bits. -/
def joinedSlotMask : SlotMask :=
  (room.members.inOrder .listed).foldl (fun mask e =>
    let slot := slotOf e.2.memberId
    if 0 < slot ∧ slot ≤ 64 then mask ||| 1#64 <<< (slot - 1) else mask) 0

end Room

/-! ## Slot counts -/

/-- The slots that the room has, as bits. -/
def slotMaskForMaxSlot (maxSlot : ℕ) : SlotMask :=
  if 64 ≤ maxSlot then BitVec.allOnes 64
  else if maxSlot = 0 then 0
  else (1#64 <<< maxSlot) - 1

/-- The loop of `CountSlots`, which takes one bit off the mask each time. -/
def countSlotsFrom : ℕ → SlotMask → ℕ
  | 0, _ => 0
  | n + 1, mask => if mask = 0 then 0 else countSlotsFrom n (mask &&& (mask - 1)) + 1

/-- How many slots a mask has. -/
def countSlots (mask : SlotMask) : ℕ := countSlotsFrom 64 mask

/-- `n` slots from `slotBase` on. A shift by 64 or more, undefined in the source, is taken
modulo 64. -/
def slotsFrom (slotBase n : ℕ) : SlotMask :=
  (List.range' slotBase n).foldl (fun mask slot => mask ||| 1#64 <<< (slot % 64)) 0

/-- The loop of `GroupPasswordSlotMask` over the groups, from `slotBase` on. -/
def groupSlotMaskFrom (maxSlot : ℕ) : List RoomGroup → ℕ → SlotMask → SlotMask
  | [], _, mask => mask
  | group :: groups, slotBase, mask =>
    let slotCount := if group.slotNum = 0 then maxSlot else group.slotNum
    let n := min slotCount (maxSlot - slotBase)
    let mask := if group.withPassword then mask ||| slotsFrom slotBase n else mask
    if maxSlot ≤ slotBase + n then mask
    else groupSlotMaskFrom maxSlot groups (slotBase + n) mask

/-- The slots of the groups with a password, which follow each other in the order of the groups. -/
def groupPasswordSlotMask (room : Room) (validSlots : SlotMask) : SlotMask :=
  groupSlotMaskFrom room.maxSlot room.groups 0 0 &&& validSlots

/-- The four counts, from the slots behind a password and the slots of the members. -/
def recomputeRoomSlotCounts (room : Room) : Room :=
  let validSlots := slotMaskForMaxSlot room.maxSlot
  let privateSlots :=
    if room.passwdSlotMask &&& validSlots = 0 then groupPasswordSlotMask room validSlots
    else room.passwdSlotMask &&& validSlots
  let publicSlots := validSlots &&& ~~~privateSlots
  let joinedSlots := room.joinedSlotMask &&& validSlots
  { room with
    publicSlots := countSlots publicSlots
    privateSlots := countSlots privateSlots
    openPublicSlots := countSlots (publicSlots &&& ~~~joinedSlots)
    openPrivateSlots := countSlots (privateSlots &&& ~~~joinedSlots) }

/-! ## What clients are told -/

/-- A binary attribute in a message. -/
structure MatchingBinAttr where
  attrId : ℕ
  data : List UInt8
  updateDate : ℕ := 0
  updateMemberId : ℕ := 0

/-- An integer attribute in a message. -/
structure MatchingIntAttr where
  attrId : ℕ
  attrValue : ℕ

/-- A group in a message. -/
structure MatchingRoomGroup where
  groupId : ℕ
  hasPasswd : Bool
  hasLabel : Bool
  label : List UInt8
  slotCount : ℕ
  numMembers : ℕ

/-- A room as its members are told of it. -/
structure MatchingRoomDataInternal where
  publicSlots : ℕ
  privateSlots : ℕ
  openPublicSlots : ℕ
  openPrivateSlots : ℕ
  maxSlot : ℕ
  serverId : ℕ
  worldId : ℕ
  lobbyId : ℕ
  roomId : ℕ
  passwdSlotMask : SlotMask
  /-- 32 bits of it -/
  joinedSlotMask : BitVec 32
  groups : List MatchingRoomGroup
  flags : UInt32
  binAttrsInternal : List MatchingBinAttr

/-- A member as the others are told of him. -/
structure MatchingRoomMemberData where
  npid : String
  memberId : ℕ
  teamId : ℕ
  isOwner : Bool
  joinDate : ℕ
  natType : ℕ
  flagAttr : UInt32
  addr : String
  port : ℕ
  groupId : ℕ
  accountId : ℕ
  platform : ℕ
  binAttrsInternal : List MatchingBinAttr

/-- What is told to somebody who comes into a room. -/
structure CreateJoinRoomResponse where
  roomData : MatchingRoomDataInternal
  members : List MatchingRoomMemberData
  meMemberId : ℕ
  ownerMemberId : ℕ

/-- A group of the room, as it is told. -/
def fillRoomGroup (g : RoomGroup) : MatchingRoomGroup :=
  ⟨g.groupId, g.withPassword, g.label.isSome, g.label.getD [], g.slotNum, g.numMembers⟩

/-- `lobby_id` has 32 bits in the message. -/
def buildRoomDataInternal (room : Room) : MatchingRoomDataInternal where
  publicSlots := room.publicSlots
  privateSlots := room.privateSlots
  openPublicSlots := room.openPublicSlots
  openPrivateSlots := room.openPrivateSlots
  maxSlot := room.maxSlot
  serverId := room.serverId
  worldId := room.worldId
  lobbyId := room.lobbyId % 2 ^ 32
  roomId := room.roomId
  passwdSlotMask := room.passwdSlotMask
  joinedSlotMask := room.joinedSlotMask.setWidth 32
  groups := room.groups.map fillRoomGroup
  flags := room.flagAttr
  binAttrsInternal := (room.internalBinAttr.filter (·.set)).map fun slot =>
    ⟨slot.attrId, slot.data, slot.updateDate, slot.updateMemberId⟩

/-- A member of the room, as he is told. -/
def buildRoomMemberData (member : RoomMember) : MatchingRoomMemberData where
  npid := member.npid
  memberId := member.memberId
  teamId := member.teamId
  isOwner := member.flagAttr &&& roomMemberFlagOwner ≠ 0
  joinDate := member.joinDate
  natType := member.natType
  flagAttr := member.flagAttr
  addr := member.addr
  port := member.port
  groupId := member.groupId
  accountId := accountId member.userId
  platform := member.platform
  binAttrsInternal :=
    if member.memberBinAttr.set then
      [⟨member.memberBinAttr.attrId, member.memberBinAttr.data, member.memberBinAttr.updateDate, 0⟩]
    else []

/-- The members are listed by id. -/
def buildCreateJoinResponse (room : Room) (me : RoomMember) : CreateJoinRoomResponse where
  roomData := buildRoomDataInternal room
  members := (room.members.keys.mergeSort (· ≤ ·)).filterMap fun mid =>
    (room.members.get? mid).map buildRoomMemberData
  meMemberId := me.memberId
  ownerMemberId := room.ownerMemberId

end ShadNet
