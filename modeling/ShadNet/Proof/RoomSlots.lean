import ShadNet.Lib.Bits
import ShadNet.Proof.RoomJoin

/-!
# Slot counts

In a room with up to 64 slots the members sit in different slots, and the four counts that a room
keeps are those of its slots.

* `countSlots_eq`: the loop of `CountSlots` counts the ones of a mask.
* `groupOfSlot`, `bits_groupPasswordSlotMask`: the slots of groups that have a password.
* `slots_ok`: the counts are right in every reachable state.
-/

namespace ShadNet

open Lib

variable {room room' : Room}

/-! ## Masks -/

/-- Enough rounds count the ones of a mask. -/
theorem countSlotsFrom_eq (n : ℕ) (mask : SlotMask) (h : (bits mask).card ≤ n) :
    countSlotsFrom n mask = (bits mask).card := by
  induction n generalizing mask with
  | zero => exact (Nat.le_zero.mp h).symm
  | succ n ih =>
    unfold countSlotsFrom
    by_cases hzero : mask = 0
    · rw [if_pos hzero, bits_eq_empty.mpr hzero, Finset.card_empty]
    · have hcard := card_bits_and_sub_one hzero
      rw [if_neg hzero, ih _ (by omega), hcard]

/-- **The loop counts the slots.** -/
theorem countSlots_eq (mask : SlotMask) : countSlots mask = (bits mask).card :=
  countSlotsFrom_eq 64 mask (card_bits_le mask)

/-- The mask of a room has the slots of the room. -/
theorem bits_slotMaskForMaxSlot {maxSlot : ℕ} (h : maxSlot ≤ 64) :
    bits (slotMaskForMaxSlot maxSlot) = Finset.range maxSlot := by
  unfold slotMaskForMaxSlot
  split
  · obtain rfl : maxSlot = 64 := by omega
    exact bits_allOnes
  · split
    · rename_i hzero
      rw [hzero, Finset.range_zero]
      exact bits_eq_empty.mpr rfl
    · exact bits_lowOnes (by omega)

/-! ## Groups -/

/-- The group of a slot, counted from 0: each group takes the slots that follow those of the groups
before it. -/
def groupOfSlot (maxSlot : ℕ) : List RoomGroup → ℕ → Option RoomGroup
  | [], _ => none
  | group :: groups, slot =>
    let slotCount := if group.slotNum = 0 then maxSlot else group.slotNum
    if slot < slotCount then some group else groupOfSlot maxSlot groups (slot - slotCount)

/-- The slot is in a group that has a password. -/
def Room.groupPasswd (room : Room) (slot : ℕ) : Bool :=
  (groupOfSlot room.maxSlot room.groups slot).any (·.withPassword)

theorem slotsFrom_getLsbD {slotBase n slot : ℕ} (h : slotBase + n ≤ 64) (hslot : slot < 64) :
    (slotsFrom slotBase n).getLsbD slot = decide (slotBase ≤ slot ∧ slot < slotBase + n) := by
  have hzero : (0 : SlotMask).getLsbD slot = false := BitVec.getLsbD_zero
  unfold slotsFrom
  rw [getLsbD_foldl_setBit _ _ _ hslot, hzero, Bool.false_or, Bool.eq_iff_iff, List.any_eq_true,
    decide_eq_true_eq]
  simp only [List.mem_range'_1, decide_eq_true_eq]
  constructor
  · rintro ⟨i, hi, hmod⟩
    omega
  · intro hi
    exact ⟨slot, hi, by omega⟩

/-- The loop over the groups, from any of them on. -/
theorem groupSlotMaskFrom_getLsbD {maxSlot : ℕ} (hmax : maxSlot ≤ 64) (groups : List RoomGroup)
    {slotBase : ℕ} (hbase : slotBase ≤ maxSlot) (mask : SlotMask) {slot : ℕ} (hslot : slot < maxSlot) :
    (groupSlotMaskFrom maxSlot groups slotBase mask).getLsbD slot = (mask.getLsbD slot ||
      (decide (slotBase ≤ slot) &&
        (groupOfSlot maxSlot groups (slot - slotBase)).any (·.withPassword))) := by
  induction groups generalizing slotBase mask with
  | nil => simp [groupSlotMaskFrom, groupOfSlot]
  | cons group groups ih =>
    unfold groupSlotMaskFrom groupOfSlot
    simp only
    generalize (if group.slotNum = 0 then maxSlot else group.slotNum) = slotCount
    -- the slots of this group
    have hmask : (if group.withPassword then mask ||| slotsFrom slotBase
        (min slotCount (maxSlot - slotBase)) else mask).getLsbD slot = (mask.getLsbD slot ||
          (decide (slotBase ≤ slot ∧ slot < slotBase + slotCount) && group.withPassword)) := by
      cases group.withPassword with
      | false => simp
      | true =>
        simp only [if_true, BitVec.getLsbD_or, Bool.and_true]
        rw [slotsFrom_getLsbD (by omega) (by omega)]
        congr 2
        exact propext (by omega)
    split
    · -- it takes all that are left
      rename_i hlast
      rw [hmask]
      by_cases hle : slotBase ≤ slot
      · rw [if_pos (by omega)]
        simp [hle, show slot < slotBase + slotCount by omega]
      · simp [hle]
    · rename_i hmore
      have hn : min slotCount (maxSlot - slotBase) = slotCount := by omega
      rw [ih (by omega), hmask, hn]
      by_cases hle : slotBase ≤ slot
      · by_cases hthis : slot < slotBase + slotCount
        · rw [if_pos (by omega)]
          simp [hle, hthis]
        · have hsub : slot - (slotBase + slotCount) = slot - slotBase - slotCount := by omega
          rw [if_neg (by omega), hsub]
          simp [hle, hthis, show slotBase + slotCount ≤ slot by omega]
      · simp [hle, show ¬ slotBase + slotCount ≤ slot by omega]

/-- The mask of group passwords has the slots of the groups that have one. -/
theorem bits_groupPasswordSlotMask (hmax : room.maxSlot ≤ 64) :
    bits (groupPasswordSlotMask room (slotMaskForMaxSlot room.maxSlot)) =
      (Finset.range room.maxSlot).filter fun slot => room.groupPasswd slot = true := by
  unfold groupPasswordSlotMask
  rw [bits_and, bits_slotMaskForMaxSlot hmax]
  ext slot
  rw [Finset.mem_inter, Finset.mem_filter, and_comm, and_congr_right_iff]
  intro hslot
  rw [mem_bits, groupSlotMaskFrom_getLsbD hmax _ (Nat.zero_le _) _ (Finset.mem_range.mp hslot)]
  simp [Room.groupPasswd]

/-! ## Seats -/

/-- The members sit in the first slots. -/
structure SeatedWithin (room : Room) : Prop extends Seated room where
  slot_le : ∀ mid m, room.members.get? mid = some m → slotOf mid ≤ room.maxSlot

theorem SeatedWithin.of_remain (h : SeatedWithin room) (hseated : Seated room')
    (hremain : Remain room room') (hmax : room'.maxSlot = room.maxSlot) : SeatedWithin room' := by
  refine ⟨hseated, fun mid m' hm' => ?_⟩
  obtain ⟨m, hm, -⟩ := hremain mid m' hm'
  rw [hmax]
  exact h.slot_le mid m hm

theorem Room.join_seatedWithin (h : SeatedWithin room) {joiner : RoomMember}
    (hfull : room.isFull = false)
    (hnew : ∀ mid m, room.members.get? mid = some m → m.npid ≠ joiner.npid)
    (hflag : joiner.flagAttr = 0) : SeatedWithin (room.join joiner) := by
  have hseats := join_seats room joiner
  refine ⟨Room.join_seated h.toSeated hfull hnew hflag, fun mid m hm => ?_⟩
  have hmax : (room.join joiner).maxSlot = room.maxSlot := hseats.maxSlot
  rw [hseats.members] at hm
  rw [hmax]
  rcases of_addMember hm with ⟨rfl, -⟩ | ⟨-, hold⟩
  · rw [slotOf_allocMemberId]
    exact (h.toSeated.freeSlot_free hfull).1
  · exact h.slot_le mid m hold

/-- In a room with up to 64 slots. -/
theorem seatedWithin_rules :
    RoomRules (fun _ => True) fun room => room.maxSlot ≤ 64 → SeatedWithin room where
  created _ hmax := by
    refine ⟨createdRoom_ok.seated hmax, fun mid m hm => ?_⟩
    have hseated := createdRoom_ok.seated hmax
    obtain ⟨rfl, -⟩ := createdRoom_ok.only hm
    rw [createdRoom_ok.slot]
    exact hseated.nonempty.trans_le hseated.size_le
  join {room order joiner} h hfull hnew hflag hmax :=
    Room.join_seatedWithin (h ((join_seats _ joiner).maxSlot ▸ hmax)) hfull
      (findByNpid_eq_none.mp hnew) hflag
  leave {room order npid m} h hme hleft hmax := by
    rw [afterLeave_maxSlot] at hmax
    have hroom := h hmax
    have hdrop := hroom.toMembersOk.remain (dropMember_remain room m.memberId)
    refine hroom.of_remain (Room.leave_seated hroom.toSeated (hroom.found hme).1 hleft _) ?_
      (afterLeave_maxSlot _ _ _)
    intro mid m' hm'
    obtain ⟨n, hn, hid, hnpid⟩ :=
      afterLeave_remain hdrop (dropMember_size_pos hleft) order _ mid m' hm'
    exact ⟨n, (dropMember_get?_some.mp hn).2, hid, hnpid⟩
  kick {room order npid initiator mid target flag} h _ howner hself htarget hmax := by
    have hseats := kick_seats room target mid flag
    have hroom := h (hseats.maxSlot ▸ hmax)
    refine hroom.of_remain (Room.kick_seated hroom.toSeated _ _ htarget (howner ▸ hself)) ?_
      hseats.maxSlot
    intro mid' m' hm'
    rw [hseats.members] at hm'
    exact dropMember_remain room mid mid' m' hm'
  seats {room room'} h hsame hmax := by
    have hroom := h (hsame.maxSlot ▸ hmax)
    refine ⟨hsame.seated hroom.toSeated, fun mid m hm => ?_⟩
    rw [hsame.members] at hm
    rw [hsame.maxSlot]
    exact hroom.slot_le mid m hm

/-! ## The counts -/

/-- The slots, counted from 0, that the mask of the room reserves. -/
def Room.maskSlots (room : Room) : Finset ℕ :=
  (Finset.range room.maxSlot).filter fun slot => room.passwdSlotMask.getLsbD slot = true

/-- The slots of its groups that have a password. -/
def Room.groupSlots (room : Room) : Finset ℕ :=
  (Finset.range room.maxSlot).filter fun slot => room.groupPasswd slot = true

/-- **The slots of a room are in order.** -/
structure SlotsOk (room : Room) : Prop where
  slot_range : ∀ mid m, room.members.get? mid = some m →
    1 ≤ slotOf m.memberId ∧ slotOf m.memberId ≤ room.maxSlot
  slots : ∀ mid m mid' m', room.members.get? mid = some m → room.members.get? mid' = some m' →
    slotOf m.memberId = slotOf m'.memberId → mid = mid'
  size_le : room.members.size ≤ room.maxSlot
  total : room.publicSlots + room.privateSlots = room.maxSlot
  openTotal : room.openPublicSlots + room.openPrivateSlots = room.maxSlot - room.members.size
  openPublic_le : room.openPublicSlots ≤ room.publicSlots
  openPrivate_le : room.openPrivateSlots ≤ room.privateSlots
  privateSlots : room.privateSlots =
    if room.maskSlots = ∅ then room.groupSlots.card else room.maskSlots.card

/-- The slots, counted from 0, that only some may take: those of the mask or, if there are none,
those of groups with a password. -/
def Room.reserved (room : Room) : Finset ℕ :=
  if room.maskSlots = ∅ then room.groupSlots else room.maskSlots

/-- The slots, counted from 0, that somebody has. -/
def Room.joined (room : Room) : Finset ℕ :=
  (Finset.range room.maxSlot).filter fun slot => room.taken (slot + 1) = true

/-- Slots are reserved within the room. -/
theorem reserved_subset (room : Room) : room.reserved ⊆ Finset.range room.maxSlot := by
  unfold Room.reserved
  split <;> exact Finset.filter_subset _ _

/-- The counts are those of sets of slots. -/
theorem counts_eq (hcount : Counted room) (hmax : room.maxSlot ≤ 64) :
    room.publicSlots = (Finset.range room.maxSlot \ room.reserved).card ∧
    room.privateSlots = room.reserved.card ∧
    room.openPublicSlots = ((Finset.range room.maxSlot \ room.reserved) \ room.joined).card ∧
    room.openPrivateSlots = (room.reserved \ room.joined).card := by
  have hvalid := bits_slotMaskForMaxSlot hmax
  have hmask : bits (room.passwdSlotMask &&& slotMaskForMaxSlot room.maxSlot) = room.maskSlots := by
    rw [bits_and, hvalid]
    ext slot
    simp [Room.maskSlots, and_comm]
  have hreserved : bits (if room.passwdSlotMask &&& slotMaskForMaxSlot room.maxSlot = 0 then
      groupPasswordSlotMask room (slotMaskForMaxSlot room.maxSlot)
      else room.passwdSlotMask &&& slotMaskForMaxSlot room.maxSlot) = room.reserved := by
    unfold Room.reserved
    rw [← hmask]
    simp only [bits_eq_empty]
    split
    · exact bits_groupPasswordSlotMask hmax
    · rfl
  have hjoined : bits (room.joinedSlotMask &&& slotMaskForMaxSlot room.maxSlot) = room.joined := by
    rw [bits_and, hvalid]
    ext slot
    simp only [Finset.mem_inter, mem_bits, joinedSlotMask_getLsbD, Room.joined, Finset.mem_filter,
      Finset.mem_range, Bool.and_eq_true, decide_eq_true_eq]
    exact ⟨fun h => ⟨h.2, h.1.2⟩, fun h => ⟨⟨by omega, h.2⟩, h.1⟩⟩
  have heq : recomputeRoomSlotCounts room = room := hcount
  refine ⟨?_, ?_, ?_, ?_⟩
  · have h := congrArg Room.publicSlots heq
    rw [← h]
    simp only [recomputeRoomSlotCounts]
    rw [countSlots_eq, bits_and_not, hvalid, hreserved]
  · have h := congrArg Room.privateSlots heq
    rw [← h]
    simp only [recomputeRoomSlotCounts]
    rw [countSlots_eq, hreserved]
  · have h := congrArg Room.openPublicSlots heq
    rw [← h]
    simp only [recomputeRoomSlotCounts]
    rw [countSlots_eq, bits_and_not, bits_and_not, hvalid, hreserved, hjoined]
  · have h := congrArg Room.openPrivateSlots heq
    rw [← h]
    simp only [recomputeRoomSlotCounts]
    rw [countSlots_eq, bits_and_not, hreserved, hjoined]

/-- Each member has a slot of its own. -/
theorem SeatedWithin.card_joined (h : SeatedWithin room) : room.joined.card = room.members.size := by
  have heq : room.joined = room.members.keys.toFinset.image fun mid => slotOf mid - 1 := by
    ext slot
    simp only [Room.joined, Finset.mem_filter, Finset.mem_range, Finset.mem_image, List.mem_toFinset,
      Table.mem_keys_iff, taken_iff]
    constructor
    · rintro ⟨-, mid, m, hm, hslot⟩
      rw [h.stored mid m hm] at hslot
      exact ⟨mid, ⟨m, hm⟩, by omega⟩
    · rintro ⟨mid, ⟨m, hm⟩, rfl⟩
      have hrange := h.slot_range mid m hm
      have hle := h.slot_le mid m hm
      exact ⟨by omega, mid, m, hm, by rw [h.stored mid m hm]; omega⟩
  have hsize : room.members.keys.toFinset.card = room.members.size :=
    List.toFinset_card_of_nodup room.members.keys_nodup
  rw [heq, Finset.card_image_of_injOn, hsize]
  intro mid hmid mid' hmid' hslots
  obtain ⟨m, hm⟩ := Table.mem_keys_iff.mp (List.mem_toFinset.mp hmid)
  obtain ⟨m', hm'⟩ := Table.mem_keys_iff.mp (List.mem_toFinset.mp hmid')
  have hpos := (h.slot_range mid m hm).1
  have hpos' := (h.slot_range mid' m' hm').1
  simp only at hslots
  exact h.slots mid m mid' m' hm hm' (by omega)

/-- In a room of at most 64 slots with right counts, the slots are right. -/
theorem SeatedWithin.slotsOk (h : SeatedWithin room) (hcount : Counted room) : SlotsOk room := by
  obtain ⟨hpublic, hprivate, hopenPublic, hopenPrivate⟩ := counts_eq hcount h.maxSlot_le
  have hsub := reserved_subset room
  have hjoined : room.joined ⊆ Finset.range room.maxSlot := Finset.filter_subset _ _
  refine ⟨fun mid m hm => ?_, fun mid m mid' m' hm hm' hslots => ?_, h.size_le, ?_, ?_, ?_, ?_, ?_⟩
  · rw [h.stored mid m hm]
    exact ⟨(h.slot_range mid m hm).1, h.slot_le mid m hm⟩
  · rw [h.stored mid m hm, h.stored mid' m' hm'] at hslots
    exact h.slots mid m mid' m' hm hm' hslots
  · rw [hpublic, hprivate, Finset.card_sdiff_add_card_eq_card hsub, Finset.card_range]
  · -- the open slots are those that nobody has, in two parts
    calc room.openPublicSlots + room.openPrivateSlots
        = ((Finset.range room.maxSlot \ room.joined) \ room.reserved).card +
          ((Finset.range room.maxSlot \ room.joined) ∩ room.reserved).card := by
          rw [hopenPublic, hopenPrivate, sdiff_right_comm, Finset.sdiff_inter_right_comm,
            Finset.inter_eq_right.mpr hsub]
      _ = (Finset.range room.maxSlot \ room.joined).card := Finset.card_sdiff_add_card_inter _ _
      _ = room.maxSlot - room.members.size := by
          rw [Finset.card_sdiff_of_subset hjoined, Finset.card_range, h.card_joined]
  · rw [hopenPublic, hpublic]
    exact Finset.card_le_card Finset.sdiff_subset
  · rw [hopenPrivate, hprivate]
    exact Finset.card_le_card Finset.sdiff_subset
  · rw [hprivate]
    unfold Room.reserved
    split <;> rfl

/-! ## Runs -/

/-- **Slots are in order** in every reachable state, in every room with up to 64 slots: the members
have different slots from 1 to the number of slots, public and private slots make up all, the open
ones those that nobody has, and private are those of the mask or, if it reserves none, of the groups
with a password. -/
theorem slots_ok (sv : Services) (db : Database) (titleGroups : Table String String)
    (events : List Event) (n : ℕ) (key : RoomKey) (room : Room)
    (hroom : (configuredServerAfter sv db titleGroups events n).shared.matching.rooms.get? key =
      some room)
    (hmax : room.maxSlot ≤ 64) : SlotsOk room :=
  (seatedWithin_rules.steps.configured n key room hroom hmax).slotsOk (server_counted n key room hroom)

/-- Alice creates a room with four slots, the first of which is private, and Bob joins. -/
theorem bobs_slot_ok :
    let events : List Event :=
      [.connect, .request 0 (.login (some ⟨"alice", "alice", "", "", "", false⟩)) .plain,
        .request 0 (.createRoom (some
          { maxSlots := 4, hasPasswdSlotMask := true, passwdSlotMask := 1 })) .plain, .connect,
        .request 1 (.login (some ⟨"bob", "bob", "", "", "", false⟩)) .plain,
        .request 1 (.joinRoom (some { roomId := 1 })) .plain]
    ∃ room, (configuredServerAfter .plain aliceAndBob ∅ events 6).shared.matching.rooms.get? ("", 1) =
      some room ∧ SlotsOk room ∧ room.members.size = 2 ∧ room.openPublicSlots = 2 := by
  intro events
  have hdata : ((configuredServerAfter .plain aliceAndBob ∅ events 6).shared.matching.rooms.get?
      ("", 1)).map (fun room => (room.maxSlot, room.members.size, room.openPublicSlots)) =
        some (4, 2, 2) := by decide +kernel
  obtain ⟨room, hroom, hdata⟩ := Option.map_eq_some_iff.mp hdata
  simp only [Prod.mk.injEq] at hdata
  exact ⟨room, hroom, slots_ok .plain aliceAndBob ∅ events 6 _ room hroom (by omega), hdata.2⟩

end ShadNet
