import ShadNet.Proof.RoomLists

/-!
# The mask of joined slots

Who creates or joins a room is told the slots that are taken with 32 bits, who searches with 64.

* `server_slots_pos`: no member is in a slot 0.
* `joinedSlotMask_getLsbD_iff`: the mask of a room has the bits of its members, up to slot 64.
* `masks_ok_iff`: the two masks agree with the members that are listed exactly when nobody sits above
  slot 32.
-/

namespace ShadNet

open Lib

variable {room room' : Room} {op : RoomOp} {mid : ℕ} {m : RoomMember} {me : RoomMember}
  {sv : Services} {db : Database} {titleGroups : Table String String} {events : List Event}

/-! ## Slots from 1 on -/

/-- Slots count from 1. -/
def Room.SlotsPos (room : Room) : Prop :=
  ∀ mid m, room.members.get? mid = some m → 1 ≤ slotOf m.memberId

/-- A new member's slot is at least 1. -/
theorem newMember_slot_pos (room : Room) (proto : RoomMember) :
    1 ≤ slotOf (room.newMember proto).memberId := by
  change 1 ≤ slotOf room.allocMemberId
  rw [slotOf_allocMemberId]
  exact (freeSlot_range room).1

theorem Room.Step.slotsPos (hok : MembersOk room) (h : room.SlotsPos) (hstep : room.Step op room') :
    room'.SlotsPos := by
  intro mid m' hm'
  rcases hstep.member hok hm' with ⟨m, hm, hkept⟩ | ⟨info, env, req, -, -, rfl⟩
  · rw [hkept.memberId]
    exact h mid m hm
  · exact newMember_slot_pos _ _

theorem createdRoom_slotsPos {info : ClientInfo} {env : MatchingEnv} {own : MatchingSessionState}
    {rid : ℕ} {req : CreateRoomRequest} : (createdRoom info env own rid req).1.SlotsPos := by
  intro mid m hm
  have hok : JustCreated info req (createdRoom info env own rid req).1
      (createdRoom info env own rid req).2 := createdRoom_ok
  obtain ⟨-, rfl⟩ := hok.only hm
  rw [hok.slot]

/-- Slots are at least 1 along every run. -/
theorem server_slots_pos (n : ℕ) :
    AllRooms Room.SlotsPos (configuredServerAfter sv db titleGroups events n).shared.matching := by
  refine runAt_guard (P := fun s : Server => AllRooms Room.SlotsPos s.shared.matching)
    (G := fun s _ => AllRooms MembersOk s.shared.matching) ?_ ?_ (fun k _ => server_membersOk k) n
  · intro key room hroom
    cases hroom
  · intro s e hpos hok
    exact Room.Step.server hpos (fun _ _ _ _ _ _ => createdRoom_slotsPos)
      fun hroom hroomPos hstep => hstep.slotsPos (hok _ _ hroom) hroomPos

/-! ## The two masks -/

/-- A bit of the joined mask is set if a member has its slot. -/
theorem joinedSlotMask_getLsbD_iff {i : ℕ} : room.joinedSlotMask.getLsbD i = true ↔
    i < 64 ∧ ∃ mid m, room.members.get? mid = some m ∧ slotOf m.memberId = i + 1 := by
  rw [joinedSlotMask_getLsbD, Bool.and_eq_true, decide_eq_true_iff, taken_iff]

/-- Who is listed in an answer to `CreateRoom` and `JoinRoom`. -/
theorem mem_response {d : MatchingRoomMemberData} : d ∈ (buildCreateJoinResponse room me).members ↔
    ∃ mid m, room.members.get? mid = some m ∧ d = buildRoomMemberData m := by
  unfold buildCreateJoinResponse
  simp only [List.mem_filterMap, List.mem_mergeSort]
  constructor
  · rintro ⟨mid, -, hd⟩
    obtain ⟨m, hm, rfl⟩ := Option.map_eq_some_iff.mp hd
    exact ⟨mid, m, hm, rfl⟩
  · rintro ⟨mid, m, hm, rfl⟩
    exact ⟨mid, Table.mem_keys_iff.mpr ⟨m, hm⟩, by rw [hm]; rfl⟩

/-- The bits of a mask are those of the slots of the members. -/
structure MaskOf {w : ℕ} (mask : BitVec w) (members : List MatchingRoomMemberData) : Prop where
  set : ∀ d ∈ members, 1 ≤ slotOf d.memberId ∧ mask.getLsbD (slotOf d.memberId - 1) = true
  only : ∀ i, mask.getLsbD i = true → ∃ d ∈ members, slotOf d.memberId = i + 1

/-- **What is told of the slots** of a room: one mask, and its members. -/
structure MasksOk (room : Room) : Prop where
  same : ∀ me attrIds, (buildCreateJoinResponse room me).roomData.joinedSlotMask.toNat =
    (buildRoomDataExternal room attrIds).joinedSlotMask.toNat
  slots : ∀ me, MaskOf (buildCreateJoinResponse room me).roomData.joinedSlotMask
    (buildCreateJoinResponse room me).members

/-- The masks of a room are right if and only if no member has a slot above 32. -/
theorem masksOk_iff (hpos : room.SlotsPos) : MasksOk room ↔
    ∀ mid m, room.members.get? mid = some m → slotOf m.memberId ≤ 32 := by
  have hbit : ∀ me i, (buildCreateJoinResponse room me).roomData.joinedSlotMask.getLsbD i =
      (decide (i < 32) && room.joinedSlotMask.getLsbD i) := fun me i => BitVec.getLsbD_setWidth ..
  constructor
  · intro h mid m hm
    obtain ⟨hge, hset⟩ := (h.slots {}).set _ (mem_response.mpr ⟨mid, m, hm, rfl⟩)
    rw [hbit, Bool.and_eq_true, decide_eq_true_iff] at hset
    have hlt : slotOf m.memberId - 1 < 32 := hset.1
    omega
  · intro h
    constructor
    · intro me attrIds
      -- the upper half of the mask is empty
      change (room.joinedSlotMask.setWidth 32).toNat = room.joinedSlotMask.toNat
      rw [BitVec.toNat_setWidth]
      refine Nat.mod_eq_of_lt (Nat.lt_pow_two_of_testBit _ fun i hi => ?_)
      by_contra hset
      rw [Bool.not_eq_false] at hset
      obtain ⟨-, mid, m, hm, hslot⟩ := joinedSlotMask_getLsbD_iff.mp hset
      have hle := h mid m hm
      omega
    · intro me
      constructor
      · intro d hd
        obtain ⟨mid, m, hm, rfl⟩ := mem_response.mp hd
        have hge := hpos mid m hm
        have hle := h mid m hm
        change 1 ≤ slotOf m.memberId ∧ _
        refine ⟨hge, ?_⟩
        rw [hbit, Bool.and_eq_true, decide_eq_true_iff, joinedSlotMask_getLsbD_iff]
        change slotOf m.memberId - 1 < 32 ∧ slotOf m.memberId - 1 < 64 ∧ _
        exact ⟨by omega, by omega, mid, m, hm, (Nat.sub_add_cancel hge).symm⟩
      · intro i hset
        rw [hbit, Bool.and_eq_true, joinedSlotMask_getLsbD_iff] at hset
        obtain ⟨-, -, mid, m, hm, hslot⟩ := hset
        exact ⟨_, mem_response.mpr ⟨mid, m, hm, rfl⟩, hslot⟩

/-- **Masks and members** agree in a reachable room exactly when no member sits above slot 32. -/
theorem masks_ok_iff (sv : Services) (db : Database) (titleGroups : Table String String)
    (events : List Event) (n : ℕ) : AllRooms
      (fun room => MasksOk room ↔ ∀ mid m, room.members.get? mid = some m → slotOf m.memberId ≤ 32)
      (configuredServerAfter sv db titleGroups events n).shared.matching :=
  fun key room hroom => masksOk_iff (server_slots_pos n key room hroom)

/-- The 33rd user of a room is not in the mask that he is told. -/
theorem slot_33_not_told :
    ¬ ∀ sv db titleGroups events n,
      AllRooms MasksOk (configuredServerAfter sv db titleGroups events n).shared.matching := by
  intro h
  obtain ⟨n, hn⟩ : ∃ n, n = 33 := ⟨33, rfl⟩
  obtain ⟨room, hroom, hfilled⟩ := (crowd (n := n) (by omega)).room (by omega)
  have hok := h .plain crowdDb ∅ (crowdEvents n ++ []) _ _ room hroom
  obtain ⟨m, hm⟩ := (hfilled.ids (crowdId n)).mpr ⟨n, by omega, le_rfl, rfl⟩
  have hle := (masksOk_iff (server_slots_pos _ _ room hroom)).mp hok _ m hm
  rw [hfilled.stored _ m hm, slotOf_crowdId] at hle
  omega

end ShadNet
