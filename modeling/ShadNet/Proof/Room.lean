import ShadNet.Spec.Matching

/-!
# Who is in a room

* `MembersOk`: every member is stored under its own id, and no npid occurs twice.
* `RoomOk`: in addition the room is neither empty nor overfull, and exactly one member, which is
  the owner, has the owner flag.
* `Seated`: in addition the members sit in different slots, of which there are at most 64. This
  is what makes a new member's id a fresh one (`allocMemberId_fresh`).

`Seated` is kept by all that commands do to a room: `Room.join_seated`, `Room.leave_seated`,
`Room.kick_seated`, and it holds of a new one (`createdRoom_ok`).
-/

namespace ShadNet

open Lib

variable {room room' : Room} {mid mid' : ℕ} {m m' : RoomMember} {npid : String}
  {order : Order ℕ}

/-- Members are kept under their ids, and nobody is a member twice. -/
structure MembersOk (room : Room) : Prop where
  stored : ∀ mid m, room.members.get? mid = some m → m.memberId = mid
  npids : ∀ mid m mid' m', room.members.get? mid = some m → room.members.get? mid' = some m' →
    m.npid = m'.npid → mid = mid'

/-- The member has the flag of the owner. -/
def RoomMember.hasOwnerFlag (m : RoomMember) : Prop := m.flagAttr &&& roomMemberFlagOwner ≠ 0

/-- What every room keeps: members, no more of them than slots, and one owner with the flag. -/
structure RoomOk (room : Room) : Prop extends MembersOk room where
  nonempty : 0 < room.members.size
  size_le : room.members.size ≤ room.maxSlot
  owner : ∃ m, room.members.get? room.ownerMemberId = some m
  ownerFlag : ∀ mid m, room.members.get? mid = some m →
    (m.hasOwnerFlag ↔ mid = room.ownerMemberId)

/-- Slots are those of a mask, and no two members share one. -/
structure Seated (room : Room) : Prop extends RoomOk room where
  maxSlot_le : room.maxSlot ≤ 64
  slot_range : ∀ mid m, room.members.get? mid = some m → 1 ≤ slotOf mid ∧ slotOf mid ≤ 64
  slots : ∀ mid m mid' m', room.members.get? mid = some m → room.members.get? mid' = some m' →
    slotOf mid = slotOf mid' → mid = mid'

/-- Two rooms with the same members, owner and capacity. -/
structure SameSeats (room room' : Room) : Prop where
  members : room'.members = room.members
  maxSlot : room'.maxSlot = room.maxSlot
  owner : room'.ownerMemberId = room.ownerMemberId

theorem SameSeats.refl (room : Room) : SameSeats room room := ⟨rfl, rfl, rfl⟩

theorem SameSeats.trans {room'' : Room} (h : SameSeats room room') (h' : SameSeats room' room'') :
    SameSeats room room'' :=
  ⟨h'.members.trans h.members, h'.maxSlot.trans h.maxSlot, h'.owner.trans h.owner⟩

theorem SameSeats.foldl {α : Type} {f : Room → α → Room} (hf : ∀ room a, SameSeats room (f room a))
    (room : Room) (l : List α) : SameSeats room (l.foldl f room) := by
  induction l generalizing room with
  | nil => exact .refl room
  | cons a l ih => exact (hf room a).trans (ih (f room a))

/-- A room with the same seats has its members in order. -/
theorem SameSeats.membersOk (h : SameSeats room room') (hok : MembersOk room) : MembersOk room' :=
  ⟨h.members ▸ hok.stored, h.members ▸ hok.npids⟩

/-- A room with the same seats has its slots in order. -/
theorem SameSeats.seated (h : SameSeats room room') (hok : Seated room) : Seated room' where
  toMembersOk := h.membersOk hok.toMembersOk
  nonempty := h.members ▸ hok.nonempty
  size_le := h.members ▸ h.maxSlot ▸ hok.size_le
  owner := h.members ▸ h.owner ▸ hok.owner
  ownerFlag := h.members ▸ h.owner ▸ hok.ownerFlag
  maxSlot_le := h.maxSlot ▸ hok.maxSlot_le
  slot_range := h.members ▸ hok.slot_range
  slots := h.members ▸ hok.slots

theorem recomputeRoomSlotCounts_seats (room : Room) :
    SameSeats room (recomputeRoomSlotCounts room) := ⟨rfl, rfl, rfl⟩

/-! ## Looking members up -/

/-- A member who is found has the npid. -/
theorem findByNpid_eq_some (h : room.findByNpid order npid = some m) :
    ∃ mid, room.members.get? mid = some m ∧ m.npid = npid := by
  obtain ⟨e, he, rfl⟩ := Option.map_eq_some_iff.mp h
  have hmem := Table.mem_inOrder.mp (List.mem_of_find?_eq_some he)
  exact ⟨e.1, hmem, by simpa using List.find?_some he⟩

/-- Nobody is found exactly if no member has the npid. -/
theorem findByNpid_eq_none :
    room.findByNpid order npid = none ↔ ∀ mid m, room.members.get? mid = some m → m.npid ≠ npid := by
  unfold Room.findByNpid
  rw [Option.map_eq_none_iff, List.find?_eq_none]
  constructor
  · intro h mid m hm
    simpa using h (mid, m) (Table.mem_inOrder.mpr hm)
  · rintro h ⟨mid, m⟩ he
    simpa using h mid m (Table.mem_inOrder.mp he)

theorem MembersOk.found (hok : MembersOk room) (h : room.findByNpid order npid = some m) :
    room.members.get? m.memberId = some m ∧ m.npid = npid := by
  obtain ⟨mid, hm, hn⟩ := findByNpid_eq_some h
  rw [hok.stored mid m hm]
  exact ⟨hm, hn⟩

/-- A slot is taken if a member has it. -/
theorem taken_iff {slot : ℕ} :
    room.taken slot = true ↔ ∃ mid m, room.members.get? mid = some m ∧ slotOf m.memberId = slot := by
  unfold Room.taken
  rw [List.any_eq_true]
  constructor
  · rintro ⟨⟨mid, m⟩, he, hs⟩
    exact ⟨mid, m, Table.mem_inOrder.mp he, by simpa using hs⟩
  · rintro ⟨mid, m, hm, hs⟩
    exact ⟨(mid, m), Table.mem_inOrder.mpr hm, by simpa using hs⟩

/-! ## New ids -/

/-- The free slot is one of 64, or 65. -/
theorem freeSlot_range (room : Room) : 1 ≤ room.freeSlot ∧ room.freeSlot ≤ 65 := by
  unfold Room.freeSlot
  cases h : (List.range' 1 64).find? fun slot => !room.taken slot with
  | none => exact ⟨by decide, by decide⟩
  | some slot =>
    have hmem := List.mem_of_find?_eq_some h
    rw [List.mem_range'_1] at hmem
    simp only [Option.getD_some]
    omega

theorem nextCounter_eq (room : Room) : room.nextCounter = (room.memberIdCounter + 1) % 16 :=
  Nat.and_two_pow_sub_one_eq_mod _ 4

/-- The counter has four bits and does not reach into the slot. -/
theorem allocMemberId_eq (room : Room) :
    room.allocMemberId = room.freeSlot * 16 + (room.memberIdCounter + 1) % 16 := by
  have hslot := (freeSlot_range room).2
  have hcounter : room.nextCounter < 2 ^ 4 := by rw [nextCounter_eq]; omega
  unfold Room.allocMemberId
  rw [← Nat.shiftLeft_add_eq_or_of_lt hcounter, Nat.shiftLeft_eq, nextCounter_eq]
  omega

/-- A new member id is for the free slot. -/
theorem slotOf_allocMemberId (room : Room) : slotOf room.allocMemberId = room.freeSlot := by
  unfold slotOf
  rw [allocMemberId_eq, Nat.shiftRight_eq_div_pow]
  omega

/-- The search finds a free slot if there is one. -/
theorem freeSlot_free {slot : ℕ} (h1 : 1 ≤ slot) (h64 : slot ≤ 64) (hfree : room.taken slot = false) :
    room.freeSlot ≤ slot ∧ room.taken room.freeSlot = false := by
  unfold Room.freeSlot
  cases hfind : (List.range' 1 64).find? fun slot => !room.taken slot with
  | none =>
    have := List.find?_eq_none.mp hfind slot (List.mem_range'_1.mpr ⟨h1, by omega⟩)
    rw [hfree] at this
    exact absurd rfl this
  | some first =>
    refine ⟨?_, by simpa using List.find?_some hfind⟩
    obtain ⟨-, i, hi, rfl, hbefore⟩ := List.find?_eq_some_iff_getElem.mp hfind
    rw [List.length_range'] at hi
    simp only [List.getElem_range', Option.getD_some]
    by_contra hlt
    -- else the slot would come before the first free one
    have := hbefore (slot - 1) (by omega)
    rw [List.getElem_range', show 1 + 1 * (slot - 1) = slot by omega, hfree] at this
    cases this

/-- Fewer members than slots leave one of them free. -/
theorem exists_free_slot (h : MembersOk room) {n : ℕ} (hlt : room.members.size < n) :
    ∃ slot, 1 ≤ slot ∧ slot ≤ n ∧ room.taken slot = false := by
  by_contra hnone
  -- else all slots are taken, by fewer members
  have hsub : List.range' 1 n ⊆ room.members.keys.map slotOf := by
    intro slot hslot
    rw [List.mem_range'_1] at hslot
    have htaken : room.taken slot = true := by
      by_contra hfree
      exact hnone ⟨slot, hslot.1, by omega, Bool.eq_false_iff.mpr hfree⟩
    obtain ⟨mid, m, hm, hs⟩ := taken_iff.mp htaken
    rw [h.stored mid m hm] at hs
    exact List.mem_map.mpr ⟨mid, Table.mem_keys_iff.mpr ⟨m, hm⟩, hs⟩
  have hnd : (List.range' 1 n).Nodup := List.nodup_range'
  have hle := hnd.length_le_of_subset hsub
  rw [List.length_range', List.length_map] at hle
  have hsize : room.members.size = room.members.keys.length := rfl
  omega

/-- A room that is not full has a free slot. -/
theorem Seated.freeSlot_free (h : Seated room) (hfull : room.isFull = false) :
    room.freeSlot ≤ room.maxSlot ∧ room.taken room.freeSlot = false := by
  have hlt : room.members.size < room.maxSlot := by simpa [Room.isFull] using hfull
  have hmax := h.maxSlot_le
  obtain ⟨slot, h1, hle, hfree⟩ := exists_free_slot h.toMembersOk hlt
  obtain ⟨hfirst, htaken⟩ := ShadNet.freeSlot_free h1 (by omega) hfree
  exact ⟨hfirst.trans hle, htaken⟩

/-- A new member id is nobody's if its slot is free. -/
theorem allocMemberId_fresh (h : MembersOk room) (hfree : room.taken room.freeSlot = false) :
    room.members.get? room.allocMemberId = none := by
  cases hm : room.members.get? room.allocMemberId with
  | none => rfl
  | some m =>
    have htaken : room.taken room.freeSlot = true :=
      taken_iff.mpr ⟨_, m, hm, by rw [h.stored _ m hm]; exact slotOf_allocMemberId room⟩
    rw [hfree] at htaken
    cases htaken

/-! ## Joining -/

theorem addMember_get? (joiner : RoomMember) : (room.addMember joiner).members.get? mid =
    if mid = room.allocMemberId then some (room.newMember joiner) else room.members.get? mid :=
  Table.get?_set

/-- Whoever is there is the new member or an old one. -/
theorem of_addMember {joiner : RoomMember}
    (hm : (room.addMember joiner).members.get? mid = some m) :
    (mid = room.allocMemberId ∧ m = room.newMember joiner) ∨
      (mid ≠ room.allocMemberId ∧ room.members.get? mid = some m) :=
  Table.of_get?_set hm

/-- A join changes the seats as `addMember` does. -/
theorem join_seats (room : Room) (joiner : RoomMember) :
    SameSeats (room.addMember joiner) (room.join joiner) := by
  unfold Room.join
  simp only
  split <;> exact ⟨rfl, rfl, rfl⟩

/-- A new npid may be added, whatever becomes of the member whose id it gets. -/
theorem MembersOk.add (h : MembersOk room) {joiner : RoomMember}
    (hnew : ∀ mid m, room.members.get? mid = some m → m.npid ≠ joiner.npid) :
    MembersOk (room.addMember joiner) := by
  constructor
  · intro mid m hm
    rcases of_addMember hm with ⟨rfl, rfl⟩ | ⟨-, hold⟩
    · rfl
    · exact h.stored mid m hold
  · intro mid m mid' m' hm hm' hn
    -- each of the two is the new member or an old one, and no old one has the new npid
    rcases of_addMember hm with ⟨rfl, rfl⟩ | ⟨-, hold⟩ <;>
      rcases of_addMember hm' with ⟨rfl, rfl⟩ | ⟨-, hold'⟩
    · rfl
    · exact absurd hn.symm (hnew mid' m' hold')
    · exact absurd hn (hnew mid m hold)
    · exact h.npids mid m mid' m' hold hold' hn

/-- A join into a room that is not full keeps its slots in order. -/
theorem Room.join_seated (h : Seated room) {joiner : RoomMember} (hfull : room.isFull = false)
    (hnew : ∀ mid m, room.members.get? mid = some m → m.npid ≠ joiner.npid)
    (hflag : joiner.flagAttr = 0) : Seated (room.join joiner) := by
  obtain ⟨hslot, hfree⟩ := h.freeSlot_free hfull
  have hfresh := allocMemberId_fresh h.toMembersOk hfree
  have hsize : (room.addMember joiner).members.size = room.members.size + 1 :=
    Table.size_set_of_none hfresh
  -- the owner's id is taken, and so not the new one
  obtain ⟨o, ho⟩ := h.owner
  have hne : room.ownerMemberId ≠ room.allocMemberId := by
    intro heq
    rw [heq, hfresh] at ho
    cases ho
  -- the slots of the old members are not the new one
  have hother : ∀ mid m, room.members.get? mid = some m → slotOf mid ≠ room.freeSlot := by
    intro mid m hm hs
    have htaken : room.taken room.freeSlot = true :=
      taken_iff.mpr ⟨mid, m, hm, by rw [h.stored mid m hm]; exact hs⟩
    rw [hfree] at htaken
    cases htaken
  refine (join_seats room joiner).seated ?_
  refine ⟨⟨h.toMembersOk.add hnew, by omega, ?_, ?_, ?_⟩, h.maxSlot_le, ?_, ?_⟩
  · have hlt : room.members.size < room.maxSlot := by simpa [Room.isFull] using hfull
    rw [hsize]
    exact hlt
  · exact ⟨o, by rw [addMember_get?]; exact (if_neg hne).trans ho⟩
  · intro mid m hm
    rcases of_addMember hm with ⟨rfl, rfl⟩ | ⟨-, hold⟩
    · -- a joiner has no flags, and its id is not the owner's
      refine iff_of_false ?_ fun howner => hne howner.symm
      have hzero : (room.newMember joiner).flagAttr = 0 := hflag
      unfold RoomMember.hasOwnerFlag
      rw [hzero]
      decide
    · exact h.ownerFlag mid m hold
  · intro mid m hm
    rcases of_addMember hm with ⟨rfl, -⟩ | ⟨-, hold⟩
    · rw [slotOf_allocMemberId]
      exact ⟨(freeSlot_range room).1, hslot.trans h.maxSlot_le⟩
    · exact h.slot_range mid m hold
  · intro mid m mid' m' hm hm' hs
    rcases of_addMember hm with ⟨rfl, -⟩ | ⟨-, hold⟩ <;>
      rcases of_addMember hm' with ⟨rfl, -⟩ | ⟨-, hold'⟩
    · rfl
    · rw [slotOf_allocMemberId] at hs
      exact absurd hs.symm (hother mid' m' hold')
    · rw [slotOf_allocMemberId] at hs
      exact absurd hs (hother mid m hold)
    · exact h.slots mid m mid' m' hold hold' hs

/-! ## Leaving -/

/-- The members of `room'` were members of `room`, under the same ids and npids. -/
def Remain (room room' : Room) : Prop := ∀ mid m', room'.members.get? mid = some m' →
  ∃ m, room.members.get? mid = some m ∧ m'.memberId = m.memberId ∧ m'.npid = m.npid

/-- A room whose members are some of those before has them in order. -/
theorem MembersOk.remain (h : MembersOk room) (hr : Remain room room') : MembersOk room' := by
  constructor
  · intro mid m' hm'
    obtain ⟨m, hm, hid, -⟩ := hr mid m' hm'
    exact hid.trans (h.stored mid m hm)
  · intro mid m' mid' n' hm' hn' heq
    obtain ⟨m, hm, -, hnpid⟩ := hr mid m' hm'
    obtain ⟨n, hn, -, hnpid'⟩ := hr mid' n' hn'
    exact h.npids mid m mid' n hm hn (hnpid.symm.trans (heq.trans hnpid'))

/-- A room whose members are some of those before, with an owner among them, has its slots in order.
-/
theorem Seated.remain (h : Seated room) (hr : Remain room room')
    (hsize : room'.members.size ≤ room.members.size) (hmax : room'.maxSlot = room.maxSlot)
    (howner : ∃ m, room'.members.get? room'.ownerMemberId = some m)
    (hflag : ∀ mid m, room'.members.get? mid = some m →
      (m.hasOwnerFlag ↔ mid = room'.ownerMemberId)) : Seated room' := by
  obtain ⟨o, ho⟩ := howner
  refine ⟨⟨h.toMembersOk.remain hr, Table.size_pos_of_some ho, ?_, ⟨o, ho⟩, hflag⟩,
    hmax ▸ h.maxSlot_le, ?_, ?_⟩
  · rw [hmax]
    exact hsize.trans h.size_le
  · intro mid m' hm'
    obtain ⟨m, hm, -⟩ := hr mid m' hm'
    exact h.slot_range mid m hm
  · intro mid m' mid' n' hm' hn' heq
    obtain ⟨m, hm, -⟩ := hr mid m' hm'
    obtain ⟨n, hn, -⟩ := hr mid' n' hn'
    exact h.slots mid m mid' n hm hn heq

theorem dropMember_get? : (room.dropMember mid').members.get? mid =
    if mid = mid' then none else room.members.get? mid :=
  Table.get?_del

theorem dropMember_get?_some : (room.dropMember mid').members.get? mid = some m ↔
    mid ≠ mid' ∧ room.members.get? mid = some m := by
  rw [dropMember_get?]
  split
  · rename_i heq
    simp [heq]
  · rename_i hne
    simp [hne]

theorem dropMember_remain (room : Room) (mid' : ℕ) : Remain room (room.dropMember mid') :=
  fun _ m hm => ⟨m, (dropMember_get?_some.mp hm).2, rfl, rfl⟩

/-- A member who is dropped makes the room smaller by one. -/
theorem dropMember_size (hm : room.members.get? mid = some m) :
    (room.dropMember mid).members.size = room.members.size - 1 :=
  Table.size_del_of_some hm

theorem takeSuccessor_ok (room : Room) (l : List ℕ) :
    (takeSuccessor room l).1 = 0 ∨ ∃ m, room.members.get? (takeSuccessor room l).1 = some m := by
  induction l with
  | nil => exact Or.inl rfl
  | cons cand rest ih =>
    unfold takeSuccessor
    by_cases hc : (room.findById cand).isSome = true
    · rw [if_pos hc]
      exact Or.inr (Option.isSome_iff_exists.mp hc)
    · rw [if_neg hc]
      exact ih

/-- `room'` is `room` with a new owner, one of the members. -/
structure NewOwner (room room' : Room) (m : RoomMember) : Prop where
  owner : room.members.get? room'.ownerMemberId = some m
  get? : ∀ mid, room'.members.get? mid =
    if mid = room'.ownerMemberId then some { m with flagAttr := m.flagAttr ||| roomMemberFlagOwner }
    else room.members.get? mid
  size : room'.members.size = room.members.size
  maxSlot : room'.maxSlot = room.maxSlot

/-- A room with members passes to one of them. -/
theorem passOwner_ok (h : MembersOk room) (hsize : 0 < room.members.size) (order : Order ℕ) :
    ∃ m, NewOwner room (room.passOwner order) m := by
  have hmem : ∃ m, room.members.get? (room.passOwner order).ownerMemberId = some m := by
    simp only [Room.passOwner]
    by_cases hzero : (takeSuccessor room room.ownerSuccession).1 = 0
    · -- no successor is left: the first member of the map is taken
      rw [if_pos hzero]
      cases hl : room.members.inOrder order with
      | nil =>
        obtain ⟨mid, m, hm⟩ := Table.exists_of_size_pos hsize
        have hin := Table.mem_inOrder (o := order).mpr hm
        rw [hl] at hin
        cases hin
      | cons e l =>
        have hm : room.members.get? e.1 = some e.2 :=
          Table.mem_inOrder.mp (hl ▸ List.mem_cons_self ..)
        refine ⟨e.2, ?_⟩
        simp only [List.head?_cons, Option.map_some, Option.getD_some]
        rw [h.stored _ _ hm]
        exact hm
    · rw [if_neg hzero]
      exact (takeSuccessor_ok room room.ownerSuccession).resolve_left hzero
  obtain ⟨m, hm⟩ := hmem
  refine ⟨m, hm, fun mid => ?_, Table.size_modify, rfl⟩
  have hget : (room.passOwner order).members.get? mid =
      if mid = (room.passOwner order).ownerMemberId then
        (room.members.get? (room.passOwner order).ownerMemberId).map fun m =>
          { m with flagAttr := m.flagAttr ||| roomMemberFlagOwner }
      else room.members.get? mid := Table.get?_modify
  rw [hm] at hget
  exact hget

/-- A flag that is set is up. -/
theorem or_and_flag (flags flag : UInt32) : (flags ||| flag) &&& flag = flag := by
  -- bit by bit
  simp only [← UInt32.toBitVec_inj, BitVec.eq_of_getLsbD_eq_iff]
  intro i hi
  simp
  grind

theorem hasOwnerFlag_set (m : RoomMember) :
    { m with flagAttr := m.flagAttr ||| roomMemberFlagOwner }.hasOwnerFlag := by
  unfold RoomMember.hasOwnerFlag
  rw [or_and_flag]
  decide

theorem NewOwner.remain (h : NewOwner room room' m) : Remain room room' := by
  intro mid m' hm'
  rw [h.get?] at hm'
  split at hm'
  · rename_i heq
    obtain rfl := Option.some.inj hm'
    exact ⟨m, heq ▸ h.owner, rfl, rfl⟩
  · exact ⟨m', hm', rfl, rfl⟩

/-- If nobody had the owner flag, the new owner alone has it. -/
theorem NewOwner.ownerFlag (h : NewOwner room room' m)
    (hnone : ∀ mid m, room.members.get? mid = some m → ¬ m.hasOwnerFlag) :
    ∀ mid m, room'.members.get? mid = some m → (m.hasOwnerFlag ↔ mid = room'.ownerMemberId) := by
  intro mid m' hm'
  rw [h.get?] at hm'
  split at hm'
  · rename_i heq
    obtain rfl := Option.some.inj hm'
    exact iff_of_true (hasOwnerFlag_set m) heq
  · rename_i hne
    exact iff_of_false (hnone mid m' hm') hne

/-- What a departure writes. -/
theorem afterLeave_eq (room : Room) (order : Order ℕ) (wasOwner : Bool) :
    ∃ succession owner members, room.afterLeave order wasOwner = { recomputeRoomSlotCounts room with
      flagAttr := room.flagAttr &&& ~~~roomFlagFull
      ownerSuccession := succession
      ownerMemberId := owner
      members := members } := by
  unfold Room.afterLeave Room.passOwner
  simp only
  split <;> exact ⟨_, _, _, rfl⟩

theorem afterLeave_maxSlot (room : Room) (order : Order ℕ) (wasOwner : Bool) :
    (room.afterLeave order wasOwner).maxSlot = room.maxSlot := by
  obtain ⟨_, _, _, heq⟩ := afterLeave_eq room order wasOwner
  rw [heq]
  rfl

theorem afterLeave_false (room : Room) (order : Order ℕ) :
    SameSeats room (room.afterLeave order false) := ⟨rfl, rfl, rfl⟩

theorem afterLeave_true (h : MembersOk room) (hsize : 0 < room.members.size) (order : Order ℕ) :
    ∃ m, NewOwner room (room.afterLeave order true) m := by
  have hsame : MembersOk { recomputeRoomSlotCounts room with
      flagAttr := room.flagAttr &&& ~~~roomFlagFull } := ⟨h.stored, h.npids⟩
  obtain ⟨m, hm⟩ := passOwner_ok hsame hsize order
  exact ⟨m, hm.owner, hm.get?, hm.size, hm.maxSlot⟩

/-- Those who stay after a leave were there before. -/
theorem afterLeave_remain (h : MembersOk room) (hsize : 0 < room.members.size) (order : Order ℕ)
    (wasOwner : Bool) : Remain room (room.afterLeave order wasOwner) := by
  cases wasOwner with
  | false => exact fun _ m hm => ⟨m, hm, rfl, rfl⟩
  | true =>
    obtain ⟨m, hm⟩ := afterLeave_true h hsize order
    exact hm.remain

theorem dropMember_size_pos (hleft : (room.dropMember mid).isEmpty = false) :
    0 < (room.dropMember mid).members.size := by
  simp only [Room.isEmpty, decide_eq_false_iff_not] at hleft
  omega

/-- A leave keeps the members in order. -/
theorem MembersOk.leave (h : MembersOk room) (hleft : (room.dropMember mid).isEmpty = false)
    (order : Order ℕ) (wasOwner : Bool) :
    MembersOk ((room.dropMember mid).afterLeave order wasOwner) := by
  have hdrop := h.remain (dropMember_remain room mid)
  exact hdrop.remain (afterLeave_remain hdrop (dropMember_size_pos hleft) order wasOwner)

/-- **A member leaves** a room that others stay in. -/
theorem Room.leave_seated (h : Seated room) (hme : room.members.get? m.memberId = some m)
    (hleft : (room.dropMember m.memberId).isEmpty = false) (order : Order ℕ) :
    Seated ((room.dropMember m.memberId).afterLeave order
      (decide (m.memberId = room.ownerMemberId))) := by
  have hdrop := h.toMembersOk.remain (dropMember_remain room m.memberId)
  have hpos := dropMember_size_pos hleft
  have hsize := dropMember_size hme
  by_cases hown : m.memberId = room.ownerMemberId
  · -- the owner leaves: nobody has the flag until the new owner gets it
    rw [decide_eq_true hown]
    obtain ⟨o, ho⟩ := afterLeave_true hdrop hpos order
    have hnone : ∀ mid n, (room.dropMember m.memberId).members.get? mid = some n →
        ¬ n.hasOwnerFlag := by
      intro mid n hn hflag
      obtain ⟨hne, hn⟩ := dropMember_get?_some.mp hn
      exact hne (((h.ownerFlag mid n hn).mp hflag).trans hown.symm)
    refine h.remain ?_ (by rw [ho.size]; omega) ho.maxSlot ?_ (ho.ownerFlag hnone)
    · intro mid n hn
      obtain ⟨n', hn', hid, hnpid⟩ := ho.remain mid n hn
      exact ⟨n', (dropMember_get?_some.mp hn').2, hid, hnpid⟩
    · exact ⟨_, by rw [ho.get?, if_pos rfl]⟩
  · -- anybody else: owner and flags stay
    rw [decide_eq_false hown]
    have hsame := afterLeave_false (room.dropMember m.memberId) order
    refine hsame.seated (h.remain (dropMember_remain room m.memberId) (by omega) rfl ?_ ?_)
    · obtain ⟨o, ho⟩ := h.owner
      exact ⟨o, dropMember_get?_some.mpr ⟨fun heq => hown heq.symm, ho⟩⟩
    · intro mid n hn
      exact h.ownerFlag mid n (dropMember_get?_some.mp hn).2

/-! ## Kicks and new rooms -/

/-- A kick changes the seats as `dropMember` does. -/
theorem kick_seats (room : Room) (target : RoomMember) (targetMemberId blockKickFlag : ℕ) :
    SameSeats (room.dropMember targetMemberId) (room.kick target targetMemberId blockKickFlag) := by
  unfold Room.kick
  split <;> exact ⟨rfl, rfl, rfl⟩

/-- **The owner kicks somebody else.** -/
theorem Room.kick_seated (h : Seated room) (target : RoomMember) (blockKickFlag : ℕ)
    (hm : room.members.get? mid = some m) (hne : mid ≠ room.ownerMemberId) :
    Seated (room.kick target mid blockKickFlag) := by
  have hsize := dropMember_size hm
  refine (kick_seats room target mid blockKickFlag).seated
    (h.remain (dropMember_remain room mid) (by omega) rfl ?_ ?_)
  · obtain ⟨o, ho⟩ := h.owner
    exact ⟨o, dropMember_get?_some.mpr ⟨fun heq => hne heq.symm, ho⟩⟩
  · intro mid n hn
    exact h.ownerFlag mid n (dropMember_get?_some.mp hn).2

theorem applySearchIntAttr_seats (room : Room) (a : MatchingIntAttr) :
    SameSeats room (applySearchIntAttr room a) := by
  simp only [applySearchIntAttr]
  split <;> exact ⟨rfl, rfl, rfl⟩

theorem applyCreateBinAttr_seats (member : RoomMember) (room : Room) (a : MatchingBinAttr) :
    SameSeats room (applyCreateBinAttr member room a) := by
  simp only [applyCreateBinAttr]
  split
  · exact ⟨rfl, rfl, rfl⟩
  · split
    · exact ⟨rfl, rfl, rfl⟩
    · split <;> exact ⟨rfl, rfl, rfl⟩

/-- `SetRoomDataInternal` changes no seats. -/
theorem setDataInternal_seats (room : Room) (req : SetRoomDataInternalRequest) (now setterId : ℕ) :
    SameSeats room (room.setDataInternal req now setterId) := by
  have hattr : ∀ room a, SameSeats room (applyInternalBinAttr now setterId room a) := by
    intro room a
    simp only [applyInternalBinAttr]
    split <;> exact ⟨rfl, rfl, rfl⟩
  unfold Room.setDataInternal
  refine SameSeats.trans ?_ (SameSeats.foldl hattr _ req.binAttrs)
  simp only
  split <;> exact ⟨rfl, rfl, rfl⟩

/-- `SetRoomDataExternal` changes no seats. -/
theorem setDataExternal_seats (room : Room) (req : SetRoomDataExternalRequest) :
    SameSeats room (room.setDataExternal req) := by
  have hsearch : ∀ room a, SameSeats room (applySearchBinAttr room a) := by
    intro room a
    simp only [applySearchBinAttr]
    split <;> exact ⟨rfl, rfl, rfl⟩
  have hext : ∀ room a, SameSeats room (applyExternalBinAttr room a) := by
    intro room a
    simp only [applyExternalBinAttr]
    split <;> exact ⟨rfl, rfl, rfl⟩
  exact ((SameSeats.foldl applySearchIntAttr_seats room req.searchIntAttrs).trans
    (SameSeats.foldl hsearch _ req.searchBinAttrs)).trans (SameSeats.foldl hext _ req.extBinAttrs)

theorem freeSlot_empty (h : room.members = ∅) : room.freeSlot = 1 := by
  have hfree : room.taken 1 = false := by
    by_contra htaken
    rw [Bool.not_eq_false, taken_iff] at htaken
    obtain ⟨mid, m, hm, -⟩ := htaken
    rw [h] at hm
    cases hm
  unfold Room.freeSlot
  rw [List.range'_succ, List.find?_cons_of_pos (by simp [hfree])]
  rfl

variable {info : ClientInfo} {env : MatchingEnv} {own : MatchingSessionState} {rid : ℕ}
  {req : CreateRoomRequest}

/-- **A new room** has its owner in it, and nobody else. -/
structure JustCreated (info : ClientInfo) (req : CreateRoomRequest) (room : Room)
    (owner : RoomMember) : Prop where
  get? : ∀ mid, room.members.get? mid = if mid = owner.memberId then some owner else none
  size : room.members.size = 1
  ownerId : room.ownerMemberId = owner.memberId
  npid : owner.npid = info.npid
  flag : owner.flagAttr = roomMemberFlagOwner
  maxSlot : room.maxSlot = if req.maxSlots % 2 ^ 16 < 1 then 1 else req.maxSlots % 2 ^ 16
  slot : slotOf owner.memberId = 1

/-- A created room has its creator for its only member. -/
theorem createdRoom_ok : JustCreated info req (createdRoom info env own rid req).1
    (createdRoom info env own rid req).2 := by
  -- the room before the owner enters
  obtain ⟨hmembers, hmax, -⟩ : SameSeats _ (createEmptyRoom own rid req) :=
    SameSeats.foldl applySearchIntAttr_seats _ req.externalSearchIntAttrs
  generalize hempty : createEmptyRoom own rid req = empty at hmembers hmax
  simp only [createdRoom, hempty]
  set room := { empty with
    groups := empty.groups.modify (ownerGroup req empty.groups) fun g =>
      { g with numMembers := g.numMembers + 1 } }
  set owner := createOwner info env req empty.groups
  have hnone : ∀ mid, room.members.get? mid = none := by
    intro mid
    rw [show room.members = ∅ from hmembers]
    rfl
  -- the attributes of the request change no seats
  have hfold := ((SameSeats.foldl (applyCreateBinAttr_seats (room.newMember owner))
    { room.addMember owner with ownerMemberId := (room.newMember owner).memberId }
    req.internalBinAttrs).trans (SameSeats.foldl (applyCreateBinAttr_seats (room.newMember owner)) _
    req.externalSearchBinAttrs)).trans
    ((SameSeats.foldl (applyCreateBinAttr_seats (room.newMember owner)) _
    req.externalBinAttrs).trans (recomputeRoomSlotCounts_seats _))
  refine ⟨fun mid => ?_, ?_, hfold.owner, rfl, rfl, hfold.maxSlot.trans hmax, ?_⟩
  · rw [hfold.members]
    refine (addMember_get? owner).trans ?_
    rw [hnone]
    rfl
  · rw [hfold.members]
    refine (Table.size_set_of_none (hnone _)).trans ?_
    rw [show room.members = ∅ from hmembers]
    rfl
  · exact (slotOf_allocMemberId room).trans (freeSlot_empty hmembers)

/-- Two rooms that differ in their attributes only. -/
def SameButAttrs (room room' : Room) : Prop :=
  ∃ searchIntAttr searchBinAttr externalBinAttr internalBinAttr,
    room' = { room with searchIntAttr, searchBinAttr, externalBinAttr, internalBinAttr }

theorem SameButAttrs.refl (room : Room) : SameButAttrs room room := ⟨_, _, _, _, rfl⟩

theorem SameButAttrs.trans {room'' : Room} (h : SameButAttrs room room')
    (h' : SameButAttrs room' room'') : SameButAttrs room room'' := by
  obtain ⟨_, _, _, _, rfl⟩ := h
  obtain ⟨_, _, _, _, rfl⟩ := h'
  exact ⟨_, _, _, _, rfl⟩

theorem SameButAttrs.foldl {α : Type} {f : Room → α → Room}
    (hf : ∀ room a, SameButAttrs room (f room a)) (room : Room) (l : List α) :
    SameButAttrs room (l.foldl f room) := by
  induction l generalizing room with
  | nil => exact .refl room
  | cons a l ih => exact (hf room a).trans (ih (f room a))

theorem applySearchIntAttr_attrs (room : Room) (a : MatchingIntAttr) :
    SameButAttrs room (applySearchIntAttr room a) := by
  simp only [applySearchIntAttr]
  split <;> exact ⟨_, _, _, _, rfl⟩

theorem applyCreateBinAttr_attrs (member : RoomMember) (room : Room) (a : MatchingBinAttr) :
    SameButAttrs room (applyCreateBinAttr member room a) := by
  simp only [applyCreateBinAttr]
  split
  · exact ⟨_, _, _, _, rfl⟩
  · split
    · exact ⟨_, _, _, _, rfl⟩
    · split <;> exact ⟨_, _, _, _, rfl⟩

/-- **What a new room takes over** from the request, with the id that it gets. -/
structure TakesOver (rid : ℕ) (req : CreateRoomRequest) (room : Room) : Prop where
  roomId : room.roomId = rid
  flags : room.flagAttr = req.flags &&& ~~~roomFlagFull
  groups : room.groups = (createGroups req).modify (ownerGroup req (createGroups req)) fun g =>
    { g with numMembers := g.numMembers + 1 }
  allowedUsers : room.allowedUsers = req.allowedOnlineIds
  blockedUsers : room.blockedUsers = req.blockedOnlineIds
  allowedAccountIds : room.allowedAccountIds = req.allowedAccountIds
  blockedAccountIds : room.blockedAccountIds = req.blockedAccountIds

/-- A created room takes over what the request asks for. -/
theorem createdRoom_takesOver : TakesOver rid req (createdRoom info env own rid req).1 := by
  have hempty : SameButAttrs _ (createEmptyRoom own rid req) :=
    SameButAttrs.foldl applySearchIntAttr_attrs _ req.externalSearchIntAttrs
  obtain ⟨_, _, _, _, hempty⟩ := hempty
  simp only [createdRoom, hempty]
  -- the room with its owner, before its attributes are set
  generalize hroom : ({ Room.addMember _ _ with ownerMemberId := _ } : Room) = room
  generalize Room.newMember _ _ = member
  have hfold := ((SameButAttrs.foldl (applyCreateBinAttr_attrs member) room
    req.internalBinAttrs).trans (SameButAttrs.foldl (applyCreateBinAttr_attrs member) _
    req.externalSearchBinAttrs)).trans (SameButAttrs.foldl (applyCreateBinAttr_attrs member) _
    req.externalBinAttrs)
  obtain ⟨_, _, _, _, hfold⟩ := hfold
  rw [hfold, ← hroom]
  exact ⟨rfl, rfl, rfl, rfl, rfl, rfl, rfl⟩

/-- The only member of a room just created is its owner. -/
theorem JustCreated.only {owner : RoomMember} (h : JustCreated info req room owner)
    (hm : room.members.get? mid = some m) : mid = owner.memberId ∧ m = owner := by
  rw [h.get?] at hm
  split at hm
  · rename_i heq
    exact ⟨heq, (Option.some.inj hm).symm⟩
  · cases hm

theorem JustCreated.membersOk {owner : RoomMember} (h : JustCreated info req room owner) :
    MembersOk room := by
  constructor
  · intro mid m hm
    obtain ⟨rfl, rfl⟩ := h.only hm
    rfl
  · intro mid m mid' m' hm hm' _
    exact (h.only hm).1.trans (h.only hm').1.symm

theorem JustCreated.seated {owner : RoomMember} (h : JustCreated info req room owner)
    (hmax : room.maxSlot ≤ 64) : Seated room := by
  have hpos : 1 ≤ room.maxSlot := by
    rw [h.maxSlot]
    split <;> omega
  refine ⟨⟨h.membersOk, ?_, ?_, ?_, ?_⟩, hmax, ?_, ?_⟩
  · rw [h.size]
    exact Nat.one_pos
  · rw [h.size]
    exact hpos
  · exact ⟨owner, by rw [h.get?, h.ownerId, if_pos rfl]⟩
  · intro mid m hm
    obtain ⟨rfl, rfl⟩ := h.only hm
    refine iff_of_true ?_ h.ownerId.symm
    unfold RoomMember.hasOwnerFlag
    rw [h.flag]
    decide
  · intro mid m hm
    obtain ⟨rfl, -⟩ := h.only hm
    rw [h.slot]
    decide
  · intro mid m mid' m' hm hm' _
    exact (h.only hm).1.trans (h.only hm').1.symm

end ShadNet
