import ShadNet.Lib.Loop
import ShadNet.Proof.RoomSlots
import ShadNet.Spec.SlotScan

/-!
# The slot loops end

* `leaves_countStep`, `leaves_groupScan`: the loops end with the values of `countSlots` and
  `groupPasswordSlotMask`.
* `mem_groupShiftsFrom`: `GroupPasswordSlotMask` shifts by the slots of the groups that have a password.
* `slot_counts_iff`: all shifts are by less than 64, and the mask has exactly the slots of these
  groups, if and only if none of their slots from 64 on is in the room.
-/

namespace ShadNet

open Lib

variable {room : Room} {maxSlot slotBase k : ℕ} {groups : List RoomGroup}

/-! ## `CountSlots` -/

theorem leaves_countStep_from (n : ℕ) (mask : SlotMask) (c : ℕ) (h : (bits mask).card ≤ n)
    (hc : c + n < 2 ^ 16) : Leaves countStep ⟨mask, c⟩ ⟨0, c + countSlotsFrom n mask⟩ := by
  induction n generalizing mask c with
  | zero =>
    have hzero : mask = 0 := bits_eq_empty.mp (Finset.card_eq_zero.mp (by omega))
    subst hzero
    exact .here rfl
  | succ n ih =>
    unfold countSlotsFrom
    by_cases hzero : mask = 0
    · subst hzero
      rw [if_pos rfl]
      exact .here rfl
    · have hcard := card_bits_and_sub_one hzero
      have hmod : (c + 1) % 2 ^ 16 = c + 1 := Nat.mod_eq_of_lt (by omega)
      have hrest := ih (mask &&& (mask - 1)) (c + 1) (by omega) (by omega)
      have hsum : c + 1 + countSlotsFrom n (mask &&& (mask - 1)) =
          c + (countSlotsFrom n (mask &&& (mask - 1)) + 1) := by omega
      rw [if_neg hzero, ← hsum]
      refine hrest.head ?_
      simp only [countStep, if_neg hzero, hmod]

/-- **`CountSlots` ends**, with all bits counted. -/
theorem leaves_countStep (mask : SlotMask) :
    Leaves countStep { mask := mask } ⟨0, countSlots mask⟩ := by
  have h := leaves_countStep_from 64 mask 0 (card_bits_le mask) (by omega)
  rwa [Nat.zero_add] at h

/-! ## The layout of the groups -/

/-- The slot `k`, counted from the first slot of `groups`, is in a group that has a password: the
groups take their slots one after another. -/
def PasswordSlot (maxSlot : ℕ) (groups : List RoomGroup) (k : ℕ) : Prop :=
  ∃ before group after, groups = before ++ group :: after ∧ group.withPassword = true ∧
    (before.map (groupSlotCount maxSlot)).sum ≤ k ∧
      k < (before.map (groupSlotCount maxSlot)).sum + groupSlotCount maxSlot group

theorem not_passwordSlot_nil : ¬ PasswordSlot maxSlot [] k := by
  rintro ⟨before, group, after, h, -⟩
  exact absurd h.symm (List.append_ne_nil_of_right_ne_nil before (List.cons_ne_nil group after))

theorem passwordSlot_cons {group : RoomGroup} : PasswordSlot maxSlot (group :: groups) k ↔
    (group.withPassword = true ∧ k < groupSlotCount maxSlot group) ∨
      (groupSlotCount maxSlot group ≤ k ∧
        PasswordSlot maxSlot groups (k - groupSlotCount maxSlot group)) := by
  constructor
  · rintro ⟨before, g, after, heq, hpw, hle, hlt⟩
    cases before with
    | nil =>
      obtain ⟨rfl, rfl⟩ := List.cons.inj heq
      rw [List.map_nil, List.sum_nil, Nat.zero_add] at hlt
      exact Or.inl ⟨hpw, hlt⟩
    | cons b before =>
      obtain ⟨rfl, rfl⟩ := List.cons.inj heq
      rw [List.map_cons, List.sum_cons] at hle hlt
      exact Or.inr ⟨by omega, before, g, after, rfl, hpw, by omega, by omega⟩
  · rintro (⟨hpw, hlt⟩ | ⟨hle, before, g, after, rfl, hpw, hge, hlt⟩)
    · exact ⟨[], group, groups, rfl, hpw, Nat.zero_le k, by simpa using hlt⟩
    · refine ⟨group :: before, g, after, rfl, hpw, ?_, ?_⟩
      · rw [List.map_cons, List.sum_cons]
        omega
      · rw [List.map_cons, List.sum_cons]
        omega

/-! ## The shifts -/

/-- By how much the loop over the groups shifts. -/
def groupShiftsFrom (maxSlot : ℕ) : List RoomGroup → ℕ → List ℕ
  | [], _ => []
  | group :: groups, slotBase =>
    let n := min (groupSlotCount maxSlot group) (maxSlot - slotBase)
    (if group.withPassword then List.range' slotBase n else []) ++
      if maxSlot ≤ slotBase + n then [] else groupShiftsFrom maxSlot groups (slotBase + n)

/-- **The shifts of the groups** are the slots of those that have a password, as far as they are in
the room. -/
theorem mem_groupShiftsFrom (hbase : slotBase ≤ maxSlot) : k ∈ groupShiftsFrom maxSlot groups slotBase ↔
    slotBase ≤ k ∧ k < maxSlot ∧ PasswordSlot maxSlot groups (k - slotBase) := by
  induction groups generalizing slotBase with
  | nil =>
    have hno : ¬ PasswordSlot maxSlot [] (k - slotBase) := not_passwordSlot_nil
    simp [groupShiftsFrom, hno]
  | cons group groups ih =>
    unfold groupShiftsFrom
    simp only
    rw [passwordSlot_cons, List.mem_append]
    generalize groupSlotCount maxSlot group = count
    have hhere : k ∈ (if group.withPassword = true then List.range' slotBase (min count (maxSlot - slotBase))
        else []) ↔ group.withPassword = true ∧ slotBase ≤ k ∧ k < maxSlot ∧ k < slotBase + count := by
      by_cases hpw : group.withPassword = true
      · rw [if_pos hpw, List.mem_range'_1]
        simp only [hpw, true_and]
        omega
      · simp [hpw]
    rw [hhere]
    by_cases hlast : maxSlot ≤ slotBase + min count (maxSlot - slotBase)
    · -- no slot of the room is left
      rw [if_pos hlast]
      constructor
      · rintro (⟨hpw, hle, hlt, hin⟩ | hmem)
        · exact ⟨hle, hlt, Or.inl ⟨hpw, by omega⟩⟩
        · exact absurd hmem List.not_mem_nil
      · rintro ⟨hle, hlt, ⟨hpw, hin⟩ | ⟨hge, -⟩⟩
        · exact Or.inl ⟨hpw, hle, hlt, by omega⟩
        · omega
    · have hn : min count (maxSlot - slotBase) = count := by omega
      rw [if_neg hlast, hn, ih (by omega)]
      have hsub : k - (slotBase + count) = k - slotBase - count := by omega
      rw [hsub]
      constructor
      · rintro (⟨hpw, hle, hlt, hin⟩ | ⟨hle, hlt, hrest⟩)
        · exact ⟨hle, hlt, Or.inl ⟨hpw, by omega⟩⟩
        · exact ⟨by omega, hlt, Or.inr ⟨by omega, hrest⟩⟩
      · rintro ⟨hle, hlt, ⟨hpw, hin⟩ | ⟨hge, hrest⟩⟩
        · exact Or.inl ⟨hpw, hle, hlt, by omega⟩
        · exact Or.inr ⟨by omega, hlt, hrest⟩

/-- The bits of the given slots are set, as the shifts do it. -/
def setSlots (mask : SlotMask) (slots : List ℕ) : SlotMask :=
  slots.foldl (fun mask slot => mask ||| 1#64 <<< (slot % 64)) mask

theorem setSlots_append (mask : SlotMask) (l l' : List ℕ) :
    setSlots mask (l ++ l') = setSlots (setSlots mask l) l' := List.foldl_append

theorem setSlots_getLsbD (mask : SlotMask) (slots : List ℕ) (hk : k < 64) :
    (setSlots mask slots).getLsbD k = (mask.getLsbD k || slots.any fun slot => slot % 64 = k) :=
  getLsbD_foldl_setBit _ _ _ hk

theorem or_slotsFrom (mask : SlotMask) (slotBase n : ℕ) :
    mask ||| slotsFrom slotBase n = setSlots mask (List.range' slotBase n) := by
  refine BitVec.eq_of_getLsbD_eq fun k hk => ?_
  have hzero : (setSlots 0 (List.range' slotBase n)).getLsbD k = _ := setSlots_getLsbD 0 _ hk
  change (mask ||| setSlots 0 (List.range' slotBase n)).getLsbD k = _
  rw [BitVec.getLsbD_or, hzero, setSlots_getLsbD mask _ hk]
  simp

theorem groupSlotMaskFrom_eq (maxSlot : ℕ) (groups : List RoomGroup) (slotBase : ℕ) (mask : SlotMask) :
    groupSlotMaskFrom maxSlot groups slotBase mask =
      setSlots mask (groupShiftsFrom maxSlot groups slotBase) := by
  induction groups generalizing slotBase mask with
  | nil => rfl
  | cons group groups ih =>
    unfold groupSlotMaskFrom groupShiftsFrom
    simp only
    rw [setSlots_append]
    change (if maxSlot ≤ slotBase + min (groupSlotCount maxSlot group) (maxSlot - slotBase) then _ else _) = _
    have hmask : (if group.withPassword = true then
        mask ||| slotsFrom slotBase (min (groupSlotCount maxSlot group) (maxSlot - slotBase)) else mask) =
        setSlots mask (if group.withPassword = true then
          List.range' slotBase (min (groupSlotCount maxSlot group) (maxSlot - slotBase)) else []) := by
      by_cases hpw : group.withPassword = true
      · rw [if_pos hpw, if_pos hpw, or_slotsFrom]
      · rw [if_neg hpw, if_neg hpw]
        rfl
    rw [← hmask]
    by_cases hlast : maxSlot ≤ slotBase + min (groupSlotCount maxSlot group) (maxSlot - slotBase)
    · rw [if_pos hlast, if_pos hlast]
      rfl
    · rw [if_neg hlast, if_neg hlast]
      exact ih _ _

/-! ## The loop over the groups -/

/-- `n` iterations of the inner loop. -/
theorem reaches_slots (group : RoomGroup) (groups : List RoomGroup) (hmax : maxSlot < 2 ^ 16)
    (hcount : groupSlotCount maxSlot group < 2 ^ 32) (n : ℕ) : ∀ (i slotBase : ℕ) (mask : SlotMask)
    (shifts : List ℕ), i + n ≤ groupSlotCount maxSlot group → slotBase + n ≤ maxSlot →
    Reaches (groupScanStep maxSlot) ⟨group :: groups, i, slotBase, mask, shifts⟩
      ⟨group :: groups, i + n, slotBase + n,
        setSlots mask (if group.withPassword then List.range' slotBase n else []),
        shifts ++ if group.withPassword then List.range' slotBase n else []⟩ := by
  induction n with
  | zero =>
    intro i slotBase mask shifts _ _
    simp only [List.range'_zero, ite_self, List.append_nil, Nat.add_zero]
    exact .refl _
  | succ n ih =>
    intro i slotBase mask shifts hi hbase
    have hmodi : (i + 1) % 2 ^ 32 = i + 1 := Nat.mod_eq_of_lt (by omega)
    have hmodb : (slotBase + 1) % 2 ^ 16 = slotBase + 1 := Nat.mod_eq_of_lt (by omega)
    have hguard : i < groupSlotCount maxSlot group ∧ slotBase < maxSlot := by omega
    have hstep : groupScanStep maxSlot ⟨group :: groups, i, slotBase, mask, shifts⟩ =
        some ⟨group :: groups, i + 1, slotBase + 1,
          if group.withPassword then mask ||| 1#64 <<< (slotBase % 64) else mask,
          if group.withPassword then shifts ++ [slotBase] else shifts⟩ := by
      simp only [groupScanStep, if_pos hguard, hmodi, hmodb]
    refine .head hstep ?_
    have hrest := ih (i + 1) (slotBase + 1)
      (if group.withPassword then mask ||| 1#64 <<< (slotBase % 64) else mask)
      (if group.withPassword then shifts ++ [slotBase] else shifts) (by omega) (by omega)
    rw [show i + (n + 1) = i + 1 + n by omega, show slotBase + (n + 1) = slotBase + 1 + n by omega]
    cases hpw : group.withPassword with
    | true => simpa [hpw, List.range'_succ, setSlots] using hrest
    | false => simpa [hpw] using hrest

/-- **The loop ends**, from any group on. -/
theorem leaves_groupScan (hmax : maxSlot < 2 ^ 16) (hnum : ∀ g ∈ groups, g.slotNum < 2 ^ 32) :
    ∀ (slotBase : ℕ) (mask : SlotMask) (shifts : List ℕ), slotBase ≤ maxSlot →
    ∃ s, Leaves (groupScanStep maxSlot) ⟨groups, 0, slotBase, mask, shifts⟩ s ∧
      s.mask = setSlots mask (groupShiftsFrom maxSlot groups slotBase) ∧
      s.shifts = shifts ++ groupShiftsFrom maxSlot groups slotBase := by
  induction groups with
  | nil =>
    intro slotBase mask shifts _
    exact ⟨_, .here rfl, rfl, (List.append_nil shifts).symm⟩
  | cons group groups ih =>
    intro slotBase mask shifts hbase
    have hcount : groupSlotCount maxSlot group < 2 ^ 32 := by
      have := hnum group List.mem_cons_self
      unfold groupSlotCount
      split
      · omega
      · exact this
    have hinner := reaches_slots group groups hmax hcount
      (min (groupSlotCount maxSlot group) (maxSlot - slotBase)) 0 slotBase mask shifts (by omega) (by omega)
    unfold groupShiftsFrom
    simp only
    rw [setSlots_append, ← List.append_assoc]
    rw [Nat.zero_add] at hinner
    -- where the inner loop ends
    generalize hn : min (groupSlotCount maxSlot group) (maxSlot - slotBase) = n at hinner ⊢
    have hguard : ¬(n < groupSlotCount maxSlot group ∧ slotBase + n < maxSlot) := by omega
    by_cases hlast : maxSlot ≤ slotBase + n
    · refine ⟨_, .of_reaches hinner (.here ?_), ?_, ?_⟩
      · simp only [groupScanStep, if_neg hguard, if_pos hlast]
      · rw [if_pos hlast]
        rfl
      · rw [if_pos hlast, List.append_nil]
    · obtain ⟨s, hs, hmask, hshifts⟩ := ih (fun g hg => hnum g (List.mem_cons_of_mem _ hg)) (slotBase + n)
        (setSlots mask (if group.withPassword then List.range' slotBase n else []))
        (shifts ++ if group.withPassword then List.range' slotBase n else []) (by omega)
      refine ⟨s, .of_reaches hinner (.head ?_ hs), ?_, ?_⟩
      · simp only [groupScanStep, if_neg hguard, if_neg hlast]
      · rw [if_neg hlast, hmask]
      · rw [if_neg hlast, hshifts]

/-! ## The other shifts -/

theorem slotMaskShifts_lt {a : ℕ} (h : a ∈ slotMaskShifts maxSlot) : a < 64 := by
  unfold slotMaskShifts at h
  split at h
  · exact absurd h List.not_mem_nil
  · split at h
    · exact absurd h List.not_mem_nil
    · rw [List.mem_singleton.mp h]
      omega

theorem joinedShifts_lt {a : ℕ} (h : a ∈ room.joinedShifts) : a < 64 := by
  obtain ⟨e, -, he⟩ := List.mem_filterMap.mp h
  simp only at he
  split at he
  · obtain rfl := Option.some.inj he
    omega
  · cases he

theorem recomputeShifts_lt {groupShifts : List ℕ} (h : ∀ a ∈ groupShifts, a < 64) :
    ∀ a ∈ room.recomputeShifts groupShifts, a < 64 := by
  intro a ha
  unfold Room.recomputeShifts at ha
  simp only [List.mem_append] at ha
  rcases ha with (ha | ha) | ha
  · exact slotMaskShifts_lt ha
  · split at ha
    · exact h a ha
    · exact absurd ha List.not_mem_nil
  · exact joinedShifts_lt ha

/-- The mask of the members is made by these shifts. -/
theorem joinedSlotMask_eq (room : Room) : room.joinedSlotMask = setSlots 0 room.joinedShifts := by
  unfold Room.joinedSlotMask Room.joinedShifts setSlots
  generalize (0 : SlotMask) = mask
  induction room.members.inOrder .listed generalizing mask with
  | nil => rfl
  | cons e l ih =>
    rw [List.foldl_cons, ih, List.filterMap_cons]
    simp only
    by_cases hslot : 0 < slotOf e.2.memberId ∧ slotOf e.2.memberId ≤ 64
    · have hmod : (slotOf e.2.memberId - 1) % 64 = slotOf e.2.memberId - 1 := Nat.mod_eq_of_lt (by omega)
      rw [if_pos hslot, if_pos hslot, List.foldl_cons, hmod]
    · rw [if_neg hslot, if_neg hslot]

/-! ## Masks and counts -/

theorem slotMaskForMaxSlot_getLsbD (maxSlot : ℕ) :
    (slotMaskForMaxSlot maxSlot).getLsbD k = decide (k < min maxSlot 64) := by
  rw [Bool.eq_iff_iff, decide_eq_true_eq]
  by_cases hmax : maxSlot ≤ 64
  · rw [← mem_bits, bits_slotMaskForMaxSlot hmax, Finset.mem_range, Nat.min_eq_left hmax]
  · unfold slotMaskForMaxSlot
    rw [if_pos (by omega), ← mem_bits, bits_allOnes, Finset.mem_range, Nat.min_eq_right (by omega)]

/-- **What the slot functions must do**: end, shift by less than 64 and find the slots of the groups
with a password, and of the members. -/
structure SlotCountsOk (room : Room) : Prop where
  counted : ∀ mask, Leaves countStep { mask := mask } ⟨0, countSlots mask⟩
  joined : room.joinedSlotMask = setSlots 0 room.joinedShifts
  scanned : ∃ s, Leaves (groupScanStep room.maxSlot) { groups := room.groups } s ∧
    (∀ validSlots, groupPasswordSlotMask room validSlots = s.mask &&& validSlots) ∧
    (∀ a ∈ s.shifts, a < 64) ∧ ∀ a ∈ room.recomputeShifts s.shifts, a < 64
  mask : ∀ k, (groupPasswordSlotMask room (slotMaskForMaxSlot room.maxSlot)).getLsbD k = true ↔
    k < min room.maxSlot 64 ∧ PasswordSlot room.maxSlot room.groups k

/-- The loop of a room, and its shifts. -/
theorem exists_groupScan (hmax : room.maxSlot < 2 ^ 16) (hnum : ∀ g ∈ room.groups, g.slotNum < 2 ^ 32) :
    ∃ s, Leaves (groupScanStep room.maxSlot) { groups := room.groups } s ∧
      s.mask = groupSlotMaskFrom room.maxSlot room.groups 0 0 ∧
      ∀ k, k ∈ s.shifts ↔ k < room.maxSlot ∧ PasswordSlot room.maxSlot room.groups k := by
  obtain ⟨s, hs, hmask, hshifts⟩ := leaves_groupScan hmax hnum 0 0 [] (Nat.zero_le _)
  refine ⟨s, hs, ?_, fun k => ?_⟩
  · rw [hmask, groupSlotMaskFrom_eq]
  · rw [hshifts, List.nil_append, mem_groupShiftsFrom (Nat.zero_le _), Nat.sub_zero]
    exact and_iff_right (Nat.zero_le k)

/-- A slot from 64 on is shifted by. -/
theorem not_slotCountsOk (hmax : room.maxSlot < 2 ^ 16) (hnum : ∀ g ∈ room.groups, g.slotNum < 2 ^ 32)
    (hk : 64 ≤ k) (hlt : k < room.maxSlot) (hpw : PasswordSlot room.maxSlot room.groups k) :
    ¬ SlotCountsOk room := by
  intro h
  obtain ⟨s, hs, -, hmem⟩ := exists_groupScan hmax hnum
  obtain ⟨s', hs', -, hshifts, -⟩ := h.scanned
  obtain rfl := hs.unique hs'
  have := hshifts k ((hmem k).mpr ⟨hlt, hpw⟩)
  omega

theorem slotCountsOk (hmax : room.maxSlot < 2 ^ 16) (hnum : ∀ g ∈ room.groups, g.slotNum < 2 ^ 32)
    (h : ∀ k, 64 ≤ k → k < room.maxSlot → ¬ PasswordSlot room.maxSlot room.groups k) :
    SlotCountsOk room := by
  obtain ⟨s, hs, hmask, hmem⟩ := exists_groupScan hmax hnum
  have hshifts : ∀ a ∈ s.shifts, a < 64 := by
    intro a ha
    obtain ⟨hlt, hpw⟩ := (hmem a).mp ha
    by_contra hge
    exact h a (by omega) hlt hpw
  refine ⟨leaves_countStep, joinedSlotMask_eq room, ⟨s, hs, ?_, hshifts, recomputeShifts_lt hshifts⟩, ?_⟩
  · intro validSlots
    rw [hmask]
    rfl
  · intro k
    unfold groupPasswordSlotMask
    rw [BitVec.getLsbD_and, slotMaskForMaxSlot_getLsbD, Bool.and_eq_true, decide_eq_true_eq, and_comm,
      and_congr_right_iff]
    intro hk
    have hzero : (0 : SlotMask).getLsbD k = false := BitVec.getLsbD_zero
    rw [groupSlotMaskFrom_eq, setSlots_getLsbD _ _ (by omega), hzero, Bool.false_or, List.any_eq_true]
    have hfrom : ∀ a, a ∈ groupShiftsFrom room.maxSlot room.groups 0 ↔
        a < room.maxSlot ∧ PasswordSlot room.maxSlot room.groups a := by
      intro a
      rw [mem_groupShiftsFrom (Nat.zero_le _), Nat.sub_zero]
      exact and_iff_right (Nat.zero_le a)
    constructor
    · rintro ⟨a, ha, hmod⟩
      obtain ⟨hlt, hpw⟩ := (hfrom a).mp ha
      have ha64 : a < 64 := by
        by_contra hge
        exact h a (by omega) hlt hpw
      rw [decide_eq_true_eq, Nat.mod_eq_of_lt ha64] at hmod
      rwa [← hmod]
    · intro hpw
      exact ⟨k, (hfrom k).mpr ⟨by omega, hpw⟩, by rw [Nat.mod_eq_of_lt (by omega)]; simp⟩

/-- **The slot functions** end, shift by less than 64 and find the slots of the groups with a
password exactly when none of these slots in the room is the 64th or a later one, counted from 0. -/
theorem slot_counts_iff (room : Room) (hmax : room.maxSlot < 2 ^ 16)
    (hnum : ∀ g ∈ room.groups, g.slotNum < 2 ^ 32) :
    SlotCountsOk room ↔
      ∀ k, 64 ≤ k → k < room.maxSlot → ¬ PasswordSlot room.maxSlot room.groups k :=
  ⟨fun h _ hk hlt hpw => not_slotCountsOk hmax hnum hk hlt hpw h, slotCountsOk hmax hnum⟩

/-- A room of 65 slots, the last of which needs a password. -/
def lastSlotRoom : Room :=
  { maxSlot := 65, groups := [{ slotNum := 64 }, { slotNum := 1, withPassword := true }] }

theorem lastSlotRoom_passwordSlot : PasswordSlot lastSlotRoom.maxSlot lastSlotRoom.groups 64 :=
  ⟨[{ slotNum := 64 }], { slotNum := 1, withPassword := true }, [], rfl, rfl, by decide, by decide⟩

theorem lastSlotRoom_slotNum : ∀ g ∈ lastSlotRoom.groups, g.slotNum < 2 ^ 32 := by
  intro g hg
  simp only [lastSlotRoom, List.mem_cons, List.not_mem_nil, or_false] at hg
  rcases hg with rfl | rfl <;> decide

/-- In that room there is a shift by 64. -/
theorem last_slot_shifted_by_64 : ¬ ∀ room : Room, room.maxSlot < 2 ^ 16 →
    (∀ g ∈ room.groups, g.slotNum < 2 ^ 32) → SlotCountsOk room := by
  intro h
  have hmax : lastSlotRoom.maxSlot < 2 ^ 16 := by decide
  exact not_slotCountsOk hmax lastSlotRoom_slotNum le_rfl (by decide) lastSlotRoom_passwordSlot
    (h lastSlotRoom hmax lastSlotRoom_slotNum)

theorem slot_counts_last_slot : ¬ SlotCountsOk lastSlotRoom :=
  fun h => (slot_counts_iff lastSlotRoom (by decide) lastSlotRoom_slotNum).mp h 64 le_rfl (by decide)
    lastSlotRoom_passwordSlot

end ShadNet
