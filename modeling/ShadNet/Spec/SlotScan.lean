import ShadNet.Spec.Room

/-!
# The slot loops

The loops of `CountSlots` and `GroupPasswordSlotMask` iteration by iteration, and by how much the
slot functions shift.
-/

namespace ShadNet

open Lib

/-! ## `CountSlots` -/

/-- The bits that are still to count, and how many were. -/
structure SlotCount where
  mask : SlotMask
  count : ℕ := 0

/-- The lowest bit goes and is counted, in 16 bits. -/
def countStep (s : SlotCount) : Option SlotCount :=
  if s.mask = 0 then none
  else some ⟨s.mask &&& (s.mask - 1), (s.count + 1) % 2 ^ 16⟩

/-! ## `GroupPasswordSlotMask` -/

/-- The slots of a group in a room of the given size. -/
def groupSlotCount (maxSlot : ℕ) (group : RoomGroup) : ℕ :=
  if group.slotNum = 0 then maxSlot else group.slotNum

/-- Where the two loops over groups and their slots are. -/
structure GroupScan where
  /-- the group that the outer loop is at, and those behind it -/
  groups : List RoomGroup
  i : ℕ := 0
  slotBase : ℕ := 0
  mask : SlotMask := 0
  /-- by how much was shifted so far -/
  shifts : List ℕ := []

/-- An iteration of the inner loop, or the end of one of the outer loop. A shift by 64 or more,
undefined in the source, is taken modulo 64. -/
def groupScanStep (maxSlot : ℕ) (s : GroupScan) : Option GroupScan :=
  match s.groups with
  | [] => none
  | group :: groups =>
    if s.i < groupSlotCount maxSlot group ∧ s.slotBase < maxSlot then
      some { s with
        i := (s.i + 1) % 2 ^ 32
        slotBase := (s.slotBase + 1) % 2 ^ 16
        mask := if group.withPassword then s.mask ||| 1#64 <<< (s.slotBase % 64) else s.mask
        shifts := if group.withPassword then s.shifts ++ [s.slotBase] else s.shifts }
    else if maxSlot ≤ s.slotBase then none
    else some { s with groups := groups, i := 0 }

/-! ## Shifts -/

/-- The shifts of `SlotMaskForMaxSlot`. -/
def slotMaskShifts (maxSlot : ℕ) : List ℕ :=
  if 64 ≤ maxSlot then []
  else if maxSlot = 0 then []
  else [maxSlot]

/-- The shifts of `joinedSlotMask`. -/
def Room.joinedShifts (room : Room) : List ℕ :=
  (room.members.inOrder .listed).filterMap fun e =>
    let slot := slotOf e.2.memberId
    if 0 < slot ∧ slot ≤ 64 then some (slot - 1) else none

/-- The shifts of `RecomputeRoomSlotCounts`, given those of `GroupPasswordSlotMask`. -/
def Room.recomputeShifts (room : Room) (groupShifts : List ℕ) : List ℕ :=
  let validSlots := slotMaskForMaxSlot room.maxSlot
  slotMaskShifts room.maxSlot ++
    (if room.passwdSlotMask &&& validSlots = 0 then groupShifts else []) ++ room.joinedShifts

end ShadNet
