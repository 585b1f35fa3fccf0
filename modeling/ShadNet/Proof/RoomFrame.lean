import ShadNet.Lib.Writes
import ShadNet.Proof.RoomChange

/-!
# Rooms and those who are not in them

* `setDataInternal_eq_self`, `setDataExternal_eq_self`: when `SetRoomData` leaves a room as it is.
* `dispatch_outside`: a command of somebody who is not in a room changes it only if it is
  `SetRoomData`, or a `JoinRoom` that succeeds.
* `outsiders_ok_iff`: so along a run rooms are changed from inside exactly when those who are outside
  set no room data but what is there.
-/

namespace ShadNet

open Lib

variable {room room' : Room}

/-! ## Slot counts are up to date -/

/-- A bit of the joined mask is set if its slot is taken. -/
theorem joinedSlotMask_getLsbD (room : Room) (i : ℕ) :
    room.joinedSlotMask.getLsbD i = (decide (i < 64) && room.taken (i + 1)) := by
  unfold Room.joinedSlotMask Room.taken
  generalize room.members.inOrder .listed = l
  -- the fold from any mask on
  have hfold : ∀ mask : SlotMask, (l.foldl (fun mask e =>
      let slot := slotOf e.2.memberId
      if 0 < slot ∧ slot ≤ 64 then mask ||| 1#64 <<< (slot - 1) else mask) mask).getLsbD i =
        (mask.getLsbD i || (decide (i < 64) && l.any fun e => slotOf e.2.memberId = i + 1)) := by
    induction l with
    | nil => simp
    | cons e l ih =>
      intro mask
      rw [List.foldl_cons, ih, List.any_cons]
      simp only
      split
      · rename_i hslot
        simp only [BitVec.getLsbD_or, BitVec.getLsbD_shiftLeft, BitVec.getLsbD_one]
        grind
      · grind
  rw [hfold]
  simp

/-- The counts do not depend on the order in which members are stored. -/
theorem joinedSlotMask_congr (h : ∀ slot, room'.taken slot = room.taken slot) :
    room'.joinedSlotMask = room.joinedSlotMask := by
  refine BitVec.eq_of_getLsbD_eq fun i _ => ?_
  rw [joinedSlotMask_getLsbD, joinedSlotMask_getLsbD, h]

/-- Setting a flag of a member takes no slot. -/
theorem taken_modify (room : Room) (mid : ℕ) (flag : UInt32) (slot : ℕ) :
    ({ room with members := room.members.modify mid fun m =>
      { m with flagAttr := m.flagAttr ||| flag } } : Room).taken slot = room.taken slot := by
  rw [Bool.eq_iff_iff, taken_iff, taken_iff]
  constructor
  · rintro ⟨k, m', hm', hslot⟩
    simp only [Table.get?_modify] at hm'
    split at hm'
    · obtain ⟨m, hm, rfl⟩ := Option.map_eq_some_iff.mp hm'
      exact ⟨_, m, hm, hslot⟩
    · exact ⟨k, m', hm', hslot⟩
  · rintro ⟨k, m, hm, hslot⟩
    by_cases hk : k = mid
    · exact ⟨k, { m with flagAttr := m.flagAttr ||| flag }, by simp [Table.get?_modify, ← hk, hm], hslot⟩
    · exact ⟨k, m, by simp [Table.get?_modify, hk, hm], hslot⟩

/-- The slot counts are those of the members, the mask and the groups. -/
def Counted (room : Room) : Prop := recomputeRoomSlotCounts room = room

theorem counted_recompute (room : Room) : Counted (recomputeRoomSlotCounts room) := rfl

theorem Counted.flags (h : Counted room) (flagAttr : UInt32) : Counted { room with flagAttr } := by
  have hcount := congrArg (fun r : Room => { r with flagAttr := flagAttr }) h
  exact hcount

theorem Counted.attrs (h : Counted room) (searchIntAttr : List IntAttrSlot)
    (searchBinAttr : BinAttrSlot) (externalBinAttr : List BinAttrSlot)
    (internalBinAttr : List InternalBinAttrSlot) :
    Counted { room with searchIntAttr, searchBinAttr, externalBinAttr, internalBinAttr } := by
  have hcount := congrArg (fun r : Room => { r with
    searchIntAttr := searchIntAttr
    searchBinAttr := searchBinAttr
    externalBinAttr := externalBinAttr
    internalBinAttr := internalBinAttr }) h
  exact hcount

/-- Passing the room to another owner leaves its counts right. -/
theorem Counted.passOwner (h : Counted room) (order : Order ℕ) : Counted (room.passOwner order) := by
  unfold Room.passOwner
  simp only
  generalize takeSuccessor room room.ownerSuccession = succession
  generalize hnew : (if succession.1 = 0 then _ else _ : ℕ) = newOwner
  -- the members sit where they sat
  have hmask := joinedSlotMask_congr (taken_modify room newOwner roomMemberFlagOwner)
  have hcount := congrArg (fun r : Room => { r with
    ownerSuccession := succession.2
    ownerMemberId := newOwner
    members := room.members.modify newOwner fun m =>
      { m with flagAttr := m.flagAttr ||| roomMemberFlagOwner } }) h
  refine Eq.trans ?_ hcount
  unfold recomputeRoomSlotCounts
  simp only
  rw [← hmask]
  rfl

/-! ## What `SetRoomData` writes -/

/-- The internal attributes of a room. -/
def internalBinSlots : Slots Room InternalBinAttrSlot where
  get := Room.internalBinAttr
  put room l := { room with internalBinAttr := l }
  put_get _ := rfl
  get_put _ _ := rfl
  put_put _ _ _ := rfl

/-- The integer attributes that searches ask for. -/
def searchIntSlots : Slots Room IntAttrSlot where
  get := Room.searchIntAttr
  put room l := { room with searchIntAttr := l }
  put_get _ := rfl
  get_put _ _ := rfl
  put_put _ _ _ := rfl

/-- The external attributes of a room. -/
def externalBinSlots : Slots Room BinAttrSlot where
  get := Room.externalBinAttr
  put room l := { room with externalBinAttr := l }
  put_get _ := rfl
  get_put _ _ := rfl
  put_put _ _ _ := rfl

/-- Where an attribute goes, and what is stored there. -/
def internalWrite (now setterId : ℕ) (a : MatchingBinAttr) : Option (ℕ × InternalBinAttrSlot) :=
  (internalBinIndexForAttr (a.attrId % 2 ^ 16)).map fun idx =>
    (idx, ⟨true, a.attrId % 2 ^ 16, a.data, now, setterId⟩)

/-- Where an integer attribute is written, if it is one that searches ask for. -/
def searchIntWrite (a : MatchingIntAttr) : Option (ℕ × IntAttrSlot) :=
  let attrId := a.attrId % 2 ^ 16
  if attrId < searchableIntAttrExternal1 ∨ searchableIntAttrExternal8 < attrId then none
  else some (attrId - searchableIntAttrExternal1, ⟨true, attrId, a.attrValue⟩)

/-- Where a binary attribute is written, if it is the one that searches ask for. -/
def searchBinWrite (a : MatchingBinAttr) : Option (ℕ × BinAttrSlot) :=
  if a.attrId % 2 ^ 16 ≠ searchableBinAttrExternal1 then none
  else some (0, ⟨true, a.attrId % 2 ^ 16, a.data⟩)

/-- Where a binary attribute is written, if it is an external one. -/
def externalWrite (a : MatchingBinAttr) : Option (ℕ × BinAttrSlot) :=
  (externalBinIndexForAttr (a.attrId % 2 ^ 16)).map fun idx =>
    (idx, ⟨true, a.attrId % 2 ^ 16, a.data⟩)

theorem applyInternalBinAttr_foldl (now setterId : ℕ) (room : Room) (attrs : List MatchingBinAttr) :
    attrs.foldl (applyInternalBinAttr now setterId) room = { room with
      internalBinAttr :=
        writeAll room.internalBinAttr (attrs.filterMap (internalWrite now setterId)) } := by
  refine internalBinSlots.foldl_eq (fun room a => ?_) room attrs
  unfold applyInternalBinAttr internalWrite
  simp only
  cases internalBinIndexForAttr (a.attrId % 2 ^ 16) <;> rfl

/-- The search attributes of a request are written one after the other. -/
theorem applySearchIntAttr_foldl (room : Room) (attrs : List MatchingIntAttr) :
    attrs.foldl applySearchIntAttr room = { room with
      searchIntAttr := writeAll room.searchIntAttr (attrs.filterMap searchIntWrite) } := by
  refine searchIntSlots.foldl_eq (fun room a => ?_) room attrs
  unfold applySearchIntAttr searchIntWrite
  simp only
  split <;> rfl

theorem applyExternalBinAttr_foldl (room : Room) (attrs : List MatchingBinAttr) :
    attrs.foldl applyExternalBinAttr room = { room with
      externalBinAttr := writeAll room.externalBinAttr (attrs.filterMap externalWrite) } := by
  refine externalBinSlots.foldl_eq (fun room a => ?_) room attrs
  unfold applyExternalBinAttr externalWrite
  simp only
  cases externalBinIndexForAttr (a.attrId % 2 ^ 16) <;> rfl

/-- There is one slot for the searchable binary attribute. -/
theorem applySearchBinAttr_foldl (room : Room) (attrs : List MatchingBinAttr) :
    attrs.foldl applySearchBinAttr room = { room with
      searchBinAttr := (lastWrite (attrs.filterMap searchBinWrite) 0).getD room.searchBinAttr } := by
  induction attrs generalizing room with
  | nil => rfl
  | cons a attrs ih =>
    rw [List.foldl_cons, ih]
    unfold applySearchBinAttr
    simp only
    by_cases ha : a.attrId % 2 ^ 16 ≠ searchableBinAttrExternal1
    · have hwrite : searchBinWrite a = none := if_pos ha
      rw [if_pos ha, List.filterMap_cons_none hwrite]
    · have hwrite : searchBinWrite a = some (0, ⟨true, a.attrId % 2 ^ 16, a.data⟩) := if_neg ha
      rw [if_neg ha, List.filterMap_cons_some hwrite, lastWrite_cons, if_pos rfl]
      cases lastWrite (attrs.filterMap searchBinWrite) 0 <;> rfl

/-- What the request makes of the room's flags. -/
def SetRoomDataInternalRequest.flags (req : SetRoomDataInternalRequest) (flagAttr : UInt32) : UInt32 :=
  (flagAttr &&& ~~~(req.flagFilter &&& ~~~roomFlagFull)) |||
    (req.flagAttr &&& (req.flagFilter &&& ~~~roomFlagFull))

/-- The room after `SetRoomDataInternal`, field by field. -/
theorem setDataInternal_eq (room : Room) (req : SetRoomDataInternalRequest) (now setterId : ℕ) :
    room.setDataInternal req now setterId = { (if req.hasPasswdMask then
        recomputeRoomSlotCounts { room with
          flagAttr := req.flags room.flagAttr
          passwdSlotMask := req.passwdSlotMask }
      else { room with flagAttr := req.flags room.flagAttr }) with
      internalBinAttr :=
        writeAll room.internalBinAttr (req.binAttrs.filterMap (internalWrite now setterId)) } := by
  unfold Room.setDataInternal
  simp only
  rw [applyInternalBinAttr_foldl]
  split <;> rfl

/-- The room after `SetRoomDataExternal`, field by field. -/
theorem setDataExternal_eq (room : Room) (req : SetRoomDataExternalRequest) :
    room.setDataExternal req = { room with
      searchIntAttr := writeAll room.searchIntAttr (req.searchIntAttrs.filterMap searchIntWrite)
      searchBinAttr :=
        (lastWrite (req.searchBinAttrs.filterMap searchBinWrite) 0).getD room.searchBinAttr
      externalBinAttr :=
        writeAll room.externalBinAttr (req.extBinAttrs.filterMap externalWrite) } := by
  unfold Room.setDataExternal
  simp only
  rw [applySearchIntAttr_foldl, applySearchBinAttr_foldl, applyExternalBinAttr_foldl]

/-- Setting flags under a mask changes nothing if they agree under it. -/
theorem setFlags_eq (flags attr mask : UInt32) :
    (flags &&& ~~~mask) ||| (attr &&& mask) = flags ↔ (flags ^^^ attr) &&& mask = 0 := by
  rw [← UInt32.toBitVec_inj, ← UInt32.toBitVec_inj]
  simp only [UInt32.toBitVec_or, UInt32.toBitVec_and, UInt32.toBitVec_not, UInt32.toBitVec_xor]
  rw [BitVec.eq_of_getLsbD_eq_iff, BitVec.eq_of_getLsbD_eq_iff]
  refine forall_congr' fun i => forall_congr' fun hi => ?_
  simp [hi]
  grind

/-- The room has what the request sets, with the time and the setter of each attribute. -/
structure SetRoomDataInternalRequest.Idle (req : SetRoomDataInternalRequest) (room : Room)
    (now setterId : ℕ) : Prop where
  flags : (room.flagAttr ^^^ req.flagAttr) &&& (req.flagFilter &&& ~~~roomFlagFull) = 0
  mask : req.hasPasswdMask = true → req.passwdSlotMask = room.passwdSlotMask
  attrs : WrittenAlready room.internalBinAttr (req.binAttrs.filterMap (internalWrite now setterId))

/-- A request that writes what is there already. -/
structure SetRoomDataExternalRequest.Idle (req : SetRoomDataExternalRequest) (room : Room) :
    Prop where
  searchInt : WrittenAlready room.searchIntAttr (req.searchIntAttrs.filterMap searchIntWrite)
  searchBin : ∀ slot ∈ lastWrite (req.searchBinAttrs.filterMap searchBinWrite) 0,
    slot = room.searchBinAttr
  extBin : WrittenAlready room.externalBinAttr (req.extBinAttrs.filterMap externalWrite)

/-- **A request changes nothing** if and only if the room has all that it asks for already. -/
theorem setDataInternal_eq_self (h : Counted room) (req : SetRoomDataInternalRequest)
    (now setterId : ℕ) : room.setDataInternal req now setterId = room ↔ req.Idle room now setterId := by
  rw [setDataInternal_eq]
  constructor
  · intro heq
    have hflags := congrArg Room.flagAttr heq
    have hmask := congrArg Room.passwdSlotMask heq
    have hattrs := congrArg Room.internalBinAttr heq
    refine ⟨(setFlags_eq _ _ _).mp ?_, fun hhas => ?_, writeAll_eq_self.mp hattrs⟩
    · simp only at hflags
      split at hflags <;> exact hflags
    · simp only [hhas, if_true] at hmask
      exact hmask
  · intro hidle
    have hflags : req.flags room.flagAttr = room.flagAttr := (setFlags_eq _ _ _).mpr hidle.flags
    rw [hflags, writeAll_eq_self.mpr hidle.attrs]
    by_cases hhas : req.hasPasswdMask = true
    · rw [if_pos hhas, hidle.mask hhas]
      have hcount : recomputeRoomSlotCounts room = room := h
      calc _ = { recomputeRoomSlotCounts room with internalBinAttr := room.internalBinAttr } := rfl
        _ = room := by rw [hcount]
    · rw [if_neg hhas]

/-- `SetRoomDataExternal` changes nothing if and only if the room has all that it asks for already.
-/
theorem setDataExternal_eq_self (room : Room) (req : SetRoomDataExternalRequest) :
    room.setDataExternal req = room ↔ req.Idle room := by
  rw [setDataExternal_eq]
  constructor
  · intro heq
    have hbin := congrArg Room.searchBinAttr heq
    refine ⟨writeAll_eq_self.mp (congrArg Room.searchIntAttr heq), fun slot hslot => ?_,
      writeAll_eq_self.mp (congrArg Room.externalBinAttr heq)⟩
    simpa [Option.mem_def.mp hslot] using hbin
  · intro hidle
    have hbin : (lastWrite (req.searchBinAttrs.filterMap searchBinWrite) 0).getD room.searchBinAttr =
        room.searchBinAttr := by
      cases hlast : lastWrite (req.searchBinAttrs.filterMap searchBinWrite) 0 with
      | none => rfl
      | some slot => exact hidle.searchBin slot hlast
    rw [writeAll_eq_self.mpr hidle.searchInt, writeAll_eq_self.mpr hidle.extBin, hbin]

/-! ## Commands keep the counts -/

/-- Every command keeps the counts of slots right. -/
theorem counted_steps : RoomSteps (fun _ => True) Counted where
  created _ := counted_recompute _
  join _ _ _ _ := by
    unfold Room.join
    simp only
    split
    · exact (counted_recompute _).flags _
    · exact counted_recompute _
  leave _ _ _ := by
    unfold Room.afterLeave
    simp only
    split
    · exact ((counted_recompute _).flags _).passOwner _
    · exact (counted_recompute _).flags _
  kick _ _ _ _ _ := (counted_recompute _).flags _
  setInternal {room req now setterId} h := by
    rw [setDataInternal_eq]
    by_cases hhas : req.hasPasswdMask = true
    · rw [if_pos hhas]
      exact (counted_recompute _).attrs _ _ _ _
    · rw [if_neg hhas]
      exact (h.flags _).attrs _ _ _ _
  setExternal h := by
    rw [setDataExternal_eq]
    exact h.attrs _ _ _ _

/-! ## Commands from outside -/

variable {m m' : MatchingSharedState} {key key' : RoomKey} {npid : String} {order : Order ℕ}
  {s : MatchingState} {info : ClientInfo} {env : MatchingEnv}

theorem findByNpid_outside (hout : ¬ room.Has npid) : room.findByNpid order npid = none := by
  rwa [← findByNpid_isSome, Bool.not_eq_true, Option.isSome_eq_false_iff, Option.isNone_iff_eq_none]
    at hout

/-- Another room is written. -/
theorem setRoom_ne (hroom : m.rooms.get? key = some room) (hne : key ≠ key') :
    (m.setRoom key' room').rooms.get? key = some room := (Table.get?_set_ne hne).trans hroom

/-- Only rooms that one is in are left. -/
theorem leaveRoom_outside {mid : ℕ} (hroom : m.rooms.get? key = some room) (hout : ¬ room.Has npid)
    (hleave : leaveRoom m key' npid order = some (m', mid)) : m'.rooms.get? key = some room := by
  obtain ⟨left, me, hleft, hme, -, hrooms⟩ := leaveRoom_cases hleave
  have hne : key ≠ key' := by
    rintro rfl
    obtain rfl := Option.some.inj (hleft.symm.trans hroom)
    rw [findByNpid_outside hout] at hme
    cases hme
  rcases hrooms with ⟨-, hrooms⟩ | ⟨-, hrooms⟩
  · rw [hrooms, Table.get?_del_ne hne, hroom]
  · rw [hrooms, Table.get?_set_ne hne, hroom]

/-- `LeaveRoom` of someone outside leaves the room as it is. -/
theorem cmdLeaveRoom_outside (hroom : s.shared.rooms.get? key = some room)
    (hout : ¬ room.Has info.npid) (roomId : Option ℕ) :
    (cmdLeaveRoom info env s roomId).1.shared.rooms.get? key = some room := by
  rcases cmdLeaveRoom_cases info env s roomId with ⟨e, heq⟩ | ⟨rid, m', mid, -, hleave, heq⟩
  · rw [heq]
    exact hroom
  · rw [heq]
    exact leaveRoom_outside hroom hout hleave

/-- The cleanup of someone outside leaves the room as it is. -/
theorem cleanup_outside (hroom : s.shared.rooms.get? key = some room) (hout : ¬ room.Has info.npid)
    (order : Order ℕ) :
    (cleanupMatchingOnDisconnect info order s).shared.rooms.get? key = some room := by
  rcases cleanupMatchingOnDisconnect_cases info order s with heq | ⟨m', mid, -, -, hleave, heq⟩
  · rw [heq]
    exact hroom
  · rw [heq]
    exact leaveRoom_outside hroom hout hleave

/-- A new room gets an id that no room has. -/
theorem cmdCreateRoom_outside (hroom : s.shared.rooms.get? key = some room)
    (hbelow : key.2 < s.shared.nextRoomId) (req : Option CreateRoomRequest) :
    (cmdCreateRoom info env s req).1.shared.rooms.get? key = some room := by
  cases req with
  | none => exact hroom
  | some r =>
    have hne : key ≠ (s.own.matchingKey, s.shared.nextRoomId) := by
      rintro rfl
      exact absurd hbelow (lt_irrefl _)
    unfold cmdCreateRoom
    simp only [insertRoom_rooms]
    exact (Table.get?_set_ne hne).trans hroom

/-- A join that fails leaves the room as it is. -/
theorem cmdJoinRoom_failed (hroom : s.shared.rooms.get? key = some room)
    {req : Option JoinRoomRequest} (hfail : (cmdJoinRoom info env s req).2.1 ≠ .noError) :
    (cmdJoinRoom info env s req).1.shared.rooms.get? key = some room := by
  rcases cmdJoinRoom_cases info env s req with
    ⟨hsame, -⟩ | ⟨r, joined, _, _, _, -, -, -, -, -, hok, -⟩
  · rw [hsame]
    exact hroom
  · exact absurd hok hfail

/-- Only owners kick, and an owner is in the room. -/
theorem cmdKickoutRoomMember_outside (hroom : s.shared.rooms.get? key = some room)
    (hout : ¬ room.Has info.npid) (req : Option KickoutRoomMemberRequest) :
    (cmdKickoutRoomMember info env s req).1.shared.rooms.get? key = some room := by
  rcases cmdKickoutRoomMember_cases info env s req with
    ⟨e, heq⟩ | ⟨r, kicked, initiator, target, -, hkicked, hini, -, -, -, heq⟩
  · rw [heq]
    exact hroom
  · rw [heq]
    refine setRoom_ne hroom ?_
    rintro rfl
    obtain rfl := Option.some.inj (hkicked.symm.trans hroom)
    rw [findByNpid_outside hout] at hini
    cases hini

/-- The request sets nothing that is new to the room, if it is meant for it. -/
def Command.IdleFor (session : ClientSession) (key : RoomKey) (room : Room) (now : ℕ) :
    Command → Prop
  | .setRoomDataInternal (some req) => session.authenticated = true →
      (session.matching.matchingKey, req.roomId) = key → req.Idle room now 0
  | .setRoomDataExternal (some req) => session.authenticated = true →
      (session.matching.matchingKey, req.roomId) = key → req.Idle room
  | _ => True

/-- **The two commands without a test.** A write from outside leaves the room as it is exactly when
there is nothing new in it. -/
theorem cmdSetRoomDataInternal_outside (hroom : s.shared.rooms.get? key = some room)
    (hcount : Counted room) (hout : ¬ room.Has info.npid) (req : SetRoomDataInternalRequest) :
    (cmdSetRoomDataInternal info env s (some req)).1.shared.rooms.get? key = some room ↔
      ((s.own.matchingKey, req.roomId) = key → req.Idle room env.now 0) := by
  unfold cmdSetRoomDataInternal
  simp only
  by_cases hkey : (s.own.matchingKey, req.roomId) = key
  · subst hkey
    simp only [hroom, findByNpid_outside hout, MatchingSharedState.setRoom]
    rw [Table.get?_set, if_pos rfl, Option.some.injEq, Option.map_none, Option.getD_none,
      setDataInternal_eq_self hcount]
    simp
  · refine iff_of_true ?_ fun h => absurd h hkey
    split
    · exact hroom
    · exact setRoom_ne hroom (Ne.symm hkey)

theorem cmdSetRoomDataExternal_outside (hroom : s.shared.rooms.get? key = some room)
    (req : SetRoomDataExternalRequest) :
    (cmdSetRoomDataExternal s (some req)).1.shared.rooms.get? key = some room ↔
      ((s.own.matchingKey, req.roomId) = key → req.Idle room) := by
  unfold cmdSetRoomDataExternal
  simp only
  by_cases hkey : (s.own.matchingKey, req.roomId) = key
  · subst hkey
    simp only [hroom, MatchingSharedState.setRoom]
    rw [Table.get?_set, if_pos rfl, Option.some.injEq, setDataExternal_eq_self]
    simp
  · refine iff_of_true ?_ fun h => absurd h hkey
    split
    · exact hroom
    · exact setRoom_ne hroom (Ne.symm hkey)

variable {sv : Services} {senv : Env} {c : ConnId} {cs : CommandState} {cmd : Command}

/-- **The frame of a room.** A command of somebody who is not in the room leaves it as it is, unless
it sets room data or is a `JoinRoom` that succeeds. -/
theorem dispatch_outside (hroom : cs.shared.matching.rooms.get? key = some room)
    (hcount : Counted room) (hbelow : key.2 < cs.shared.matching.nextRoomId)
    (hout : ¬ room.Has cs.session.info.npid)
    (hjoin : ∀ req, cmd = .joinRoom req → (dispatchCommand sv senv c cs cmd).2.1 ≠ .noError) :
    (dispatchCommand sv senv c cs cmd).1.shared.matching.rooms.get? key = some room ↔
      cmd.IdleFor cs.session key room senv.matching.now := by
  by_cases hmatching : cs.session.authenticated = true ∧
    (cmd.onRooms cs.session.info senv.matching).isSome = true
  · obtain ⟨hauth, hsome⟩ := hmatching
    obtain ⟨f, hf⟩ := Option.isSome_iff_exists.mp hsome
    have heq : dispatchCommand sv senv c cs cmd = onMatching cs f := dispatch_onRooms hauth hf
    rw [heq] at hjoin ⊢
    cases cmd <;> simp only [Command.onRooms, reduceCtorEq, Option.some.injEq] at hf <;> subst hf
    case createRoom req => exact iff_of_true (cmdCreateRoom_outside hroom hbelow req) trivial
    case joinRoom req => exact iff_of_true (cmdJoinRoom_failed hroom (hjoin req rfl)) trivial
    case leaveRoom roomId => exact iff_of_true (cmdLeaveRoom_outside hroom hout roomId) trivial
    case kickoutRoomMember req =>
      exact iff_of_true (cmdKickoutRoomMember_outside hroom hout req) trivial
    case setRoomDataInternal req =>
      cases req with
      | none => exact iff_of_true hroom trivial
      | some r =>
        refine (cmdSetRoomDataInternal_outside hroom hcount hout r).trans ?_
        simp only [Command.IdleFor, hauth, true_imp_iff]
    case setRoomDataExternal req =>
      cases req with
      | none => exact iff_of_true hroom trivial
      | some r =>
        refine (cmdSetRoomDataExternal_outside hroom r).trans ?_
        simp only [Command.IdleFor, hauth, true_imp_iff]
  · -- the matching service is not reached
    have hidle : cmd.IdleFor cs.session key room senv.matching.now := by
      unfold Command.IdleFor
      split
      · exact fun hauth => absurd ⟨hauth, rfl⟩ hmatching
      · exact fun hauth => absurd ⟨hauth, rfl⟩ hmatching
      · trivial
    rcases dispatch_cases sv senv c cs cmd with ⟨f, hauth, hf, -⟩ | hother
    · exact absurd ⟨hauth, by rw [hf]; rfl⟩ hmatching
    · rw [hother.matching]
      exact iff_of_true hroom hidle

/-! ## Runs -/

/-- A `JoinRoom` that succeeds. -/
def Server.Joins (sv : Services) (s : Server) : Event → Prop
  | .request c (.joinRoom req) env => ∃ session, s.conns.get? c = some session ∧
      (dispatchCommand sv env c ⟨s.db, s.shared, session⟩ (.joinRoom req)).2.1 = .noError
  | _ => False

/-- **Only members change a room.** Whatever a connection does whose user is not in the room, short
of a `JoinRoom` that succeeds, leaves the room as it is. -/
def OutsidersOk (sv : Services) (db : Database) (titleGroups : Table String String)
    (events : List Event) : Prop :=
  let server (k : ℕ) := configuredServerAfter sv db titleGroups events k
  ∀ k (hk : k < events.length) c session key room,
    (∃ cmd env, events[k] = .request c cmd env) ∨ (∃ env, events[k] = .disconnect c env) →
    (server k).conns.get? c = some session →
    (server k).shared.matching.rooms.get? key = some room → ¬ room.Has session.info.npid →
    ¬ (server k).Joins sv events[k] →
    (server (k + 1)).shared.matching.rooms.get? key = some room

/-- No room data is set from outside but what the room has. -/
def Server.IdleFromOutside (s : Server) : Event → Prop
  | .request c cmd env => ∀ session key room, s.conns.get? c = some session →
      s.shared.matching.rooms.get? key = some room → ¬ room.Has session.info.npid →
      cmd.IdleFor session key room env.matching.now
  | _ => True

variable {db : Database} {titleGroups : Table String String} {events : List Event}

/-- What holds of new rooms and is kept by all that is done to a room holds of every room along a
run. -/
theorem RoomSteps.configured {P : Room → Prop} (h : RoomSteps (fun _ => True) P) (n : ℕ) :
    AllRooms P (configuredServerAfter sv db titleGroups events n).shared.matching := by
  refine runAt_inv (P := fun s : Server => AllRooms P s.shared.matching) ?_ ?_ events n
  · intro key room hroom
    cases hroom
  · intro s e hall
    exact h.step hall (by unfold Event.Creates; split <;> trivial)

/-- The counts of slots are right along every run. -/
theorem server_counted (n : ℕ) :
    AllRooms Counted (configuredServerAfter sv db titleGroups events n).shared.matching :=
  counted_steps.configured n

theorem configuredServerAfter_succ {k : ℕ} (hk : k < events.length) :
    configuredServerAfter sv db titleGroups events (k + 1) =
      (configuredServerAfter sv db titleGroups events k).step sv events[k] := runAt_succ _ hk

theorem step_request {s : Server} {session : ClientSession} (hc : s.conns.get? c = some session)
    (cmd : Command) : (s.step sv (.request c cmd senv)).shared =
      (dispatchCommand sv senv c ⟨s.db, s.shared, session⟩ cmd).1.shared := by
  simp only [Server.step, hc]

/-- The disconnect of someone outside leaves the room as it is. -/
theorem disconnect_outside {s : Server} {session : ClientSession}
    (hc : s.conns.get? c = some session) (hroom : s.shared.matching.rooms.get? key = some room)
    (hout : ¬ room.Has session.info.npid) :
    (s.step sv (.disconnect c senv)).shared.matching.rooms.get? key = some room := by
  simp only [Server.step]
  cases hlive : s.live c with
  | none => exact hroom
  | some session' =>
    obtain rfl := Option.some.inj (hc.symm.trans (Server.live_eq_some.mp hlive).2)
    simp only [cleanupOnDisconnect_matching]
    split
    · exact cleanup_outside (s := ⟨s.shared.matching, session.matching⟩) hroom hout _
    · exact hroom

/-- **Rooms are changed from inside** along a run exactly when no session sets, by `SetRoomDataInternal`
or `SetRoomDataExternal`, data of a room that its user is not in and that the room does not have. -/
theorem outsiders_ok_iff (sv : Services) (db : Database) (titleGroups : Table String String)
    (events : List Event) : OutsidersOk sv db titleGroups events ↔
      ∀ k (hk : k < events.length),
        (configuredServerAfter sv db titleGroups events k).IdleFromOutside events[k] := by
  have hframe : ∀ k (hk : k < events.length) {c cmd env session key room},
      events[k] = .request c cmd env →
      (configuredServerAfter sv db titleGroups events k).conns.get? c = some session →
      (configuredServerAfter sv db titleGroups events k).shared.matching.rooms.get? key = some room →
      ¬ room.Has session.info.npid →
      ¬ (configuredServerAfter sv db titleGroups events k).Joins sv events[k] →
      ((configuredServerAfter sv db titleGroups events (k + 1)).shared.matching.rooms.get? key =
        some room ↔ cmd.IdleFor session key room env.matching.now) := by
    intro k hk c cmd env session key room he hc hroom hout hjoin
    have hbelow := (server_indexInv sv db titleGroups events k).below key room hroom
    rw [configuredServerAfter_succ hk, he, step_request hc]
    refine dispatch_outside hroom (server_counted k key room hroom) hbelow hout ?_
    rintro req rfl hok
    rw [he] at hjoin
    exact hjoin ⟨session, hc, hok⟩
  constructor
  · intro h k hk
    unfold Server.IdleFromOutside
    split
    · rename_i c cmd env he
      intro session key room hc hroom hout
      by_cases hjoin : (configuredServerAfter sv db titleGroups events k).Joins sv events[k]
      · -- a `JoinRoom` sets no data
        rw [he] at hjoin
        cases cmd <;> first | exact hjoin.elim | trivial
      · exact (hframe k hk he hc hroom hout hjoin).mp
          (h k hk c session key room (Or.inl ⟨cmd, env, he⟩) hc hroom hout hjoin)
    · trivial
  · intro h k hk c session key room hevent hc hroom hout hjoin
    rcases hevent with ⟨cmd, env, he⟩ | ⟨env, he⟩
    · have hidle := h k hk
      rw [he] at hidle
      exact (hframe k hk he hc hroom hout hjoin).mpr (hidle session key room hc hroom hout)
    · beta_reduce
      rw [configuredServerAfter_succ hk, he]
      exact disconnect_outside hc hroom hout

/-- Bob, who is not in Alice's room, closes it. -/
theorem outsider_sets_flags :
    ¬ ∀ sv db titleGroups events, OutsidersOk sv db titleGroups events := by
  intro h
  let events : List Event :=
    [.connect, .request 0 (.login (some ⟨"alice", "alice", "", "", "", false⟩)) .plain,
      .request 0 (.createRoom (some { maxSlots := 4 })) .plain, .connect,
      .request 1 (.login (some ⟨"bob", "bob", "", "", "", false⟩)) .plain,
      .request 1 (.setRoomDataInternal (some ⟨1, 0x40000000, 0x40000000, [], false, 0⟩)) .plain]
  let server (k : ℕ) := configuredServerAfter .plain aliceAndBob ∅ events k
  have hsession : ((server 5).conns.get? 1).map (·.info.npid) = some "bob" := by decide +kernel
  have hbefore : ((server 5).shared.matching.rooms.get? ("", 1)).map (fun room =>
      ((room.findByNpid .listed "bob").isSome, room.flagAttr)) = some (false, 0) := by decide +kernel
  have hafter : ((server 6).shared.matching.rooms.get? ("", 1)).map (·.flagAttr) =
      some 0x40000000 := by decide +kernel
  obtain ⟨session, hc, hbob⟩ := Option.map_eq_some_iff.mp hsession
  obtain ⟨room, hroom, hdata⟩ := Option.map_eq_some_iff.mp hbefore
  obtain ⟨hnobody, hflags⟩ := Prod.mk.inj hdata
  have hout : ¬ room.Has session.info.npid := by
    rw [hbob]
    intro hin
    have hfound : (room.findByNpid .listed "bob").isSome = true := findByNpid_isSome.mpr hin
    rw [hnobody] at hfound
    cases hfound
  have hsame : (server 6).shared.matching.rooms.get? ("", 1) = some room :=
    h .plain aliceAndBob ∅ events 5 (by decide) 1 session ("", 1) room (Or.inl ⟨_, _, rfl⟩) hc hroom
      hout id
  rw [hsame, Option.map_some, hflags] at hafter
  exact absurd hafter (by decide)

end ShadNet
