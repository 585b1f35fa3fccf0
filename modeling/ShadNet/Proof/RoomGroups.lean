import Mathlib.Data.Finset.Card
import ShadNet.Proof.RoomJoin

/-!
# Groups of a room

A group counts its members. Only `CreateRoom` keeps the count; those who join are in group 0.

* `Room.GroupsOk`: the counts are right, and the groups have different ids.
* `run_groupsOk_iff`: when what is done to a room leaves them so.
* `groups_ok_iff`: when they are so along a run.
-/

namespace ShadNet

open Lib

variable {room room' : Room} {mid groupId : ℕ} {m : RoomMember}

/-- The ids of the members of a group. -/
def Room.groupMembers (room : Room) (groupId : ℕ) : Finset ℕ :=
  room.members.keys.toFinset.filter fun mid => (room.members.get? mid).any fun m => m.groupId = groupId

/-- **The groups are right.** -/
structure Room.GroupsOk (room : Room) : Prop where
  numMembers : ∀ group ∈ room.groups, group.numMembers = (room.groupMembers group.groupId).card
  ids : (room.groups.map (·.groupId)).Nodup

/-- The members of a group are those who name it. -/
theorem mem_groupMembers : mid ∈ room.groupMembers groupId ↔
    ∃ m, room.members.get? mid = some m ∧ m.groupId = groupId := by
  unfold Room.groupMembers
  rw [Finset.mem_filter, List.mem_toFinset, Option.any_eq_true]
  simp only [decide_eq_true_eq, Table.mem_keys_iff]
  constructor
  · rintro ⟨-, h⟩
    exact h
  · rintro ⟨m, hm, hgroup⟩
    exact ⟨⟨m, hm⟩, m, hm, hgroup⟩

/-- Rooms with the same groups and members. -/
theorem Room.GroupsOk.congr (hgroups : room'.groups = room.groups)
    (hmembers : ∀ group ∈ room.groups,
      room'.groupMembers group.groupId = room.groupMembers group.groupId) :
    room'.GroupsOk ↔ room.GroupsOk := by
  constructor
  · rintro ⟨hnum, hids⟩
    rw [hgroups] at hnum hids
    exact ⟨fun group hgroup => (hnum group hgroup).trans (by rw [hmembers group hgroup]), hids⟩
  · rintro ⟨hnum, hids⟩
    refine ⟨?_, hgroups ▸ hids⟩
    rw [hgroups]
    exact fun group hgroup => (hnum group hgroup).trans (by rw [hmembers group hgroup])

/-! ## Departures -/

/-- When a member leaves, the counts of the groups stay right if and only if he was in none. -/
theorem Room.GroupsOk.erase_iff (h : room.GroupsOk) (hgroups : room'.groups = room.groups)
    (hm : room.members.get? mid = some m)
    (hmembers : ∀ groupId, room'.groupMembers groupId = (room.groupMembers groupId).erase mid) :
    room'.GroupsOk ↔ ∀ group ∈ room.groups, group.groupId ≠ m.groupId := by
  constructor
  · intro h' group hgroup heq
    have hmem : mid ∈ room.groupMembers group.groupId := mem_groupMembers.mpr ⟨m, hm, heq.symm⟩
    have hbefore := h.numMembers group hgroup
    have hafter := h'.numMembers group (hgroups ▸ hgroup)
    have herase := Finset.card_erase_add_one hmem
    rw [hmembers] at hafter
    omega
  · intro hnone
    refine (Room.GroupsOk.congr hgroups fun group hgroup => ?_).mpr h
    rw [hmembers]
    refine Finset.erase_eq_of_notMem fun hmem => hnone group hgroup ?_
    obtain ⟨m', hm', hin⟩ := mem_groupMembers.mp hmem
    obtain rfl := Option.some.inj (hm.symm.trans hm')
    exact hin.symm

/-- A member who is dropped leaves his group. -/
theorem groupMembers_dropMember (room : Room) (mid groupId : ℕ) :
    (room.dropMember mid).groupMembers groupId = (room.groupMembers groupId).erase mid := by
  ext mid'
  simp only [mem_groupMembers, Finset.mem_erase, dropMember_get?_some]
  constructor
  · rintro ⟨m, ⟨hne, hm⟩, hgroup⟩
    exact ⟨hne, m, hm, hgroup⟩
  · rintro ⟨hne, m, hm, hgroup⟩
    exact ⟨m, ⟨hne, hm⟩, hgroup⟩

/-- A new owner stays in his group. -/
theorem groupMembers_afterLeave (h : MembersOk room) (hsize : 0 < room.members.size) (order : Order ℕ)
    (wasOwner : Bool) (groupId : ℕ) :
    (room.afterLeave order wasOwner).groupMembers groupId = room.groupMembers groupId := by
  have hkept : ∀ {p p' : RoomMember}, p.Kept p' → p'.groupId = p.groupId := by
    rintro p p' (rfl | rfl) <;> rfl
  ext mid
  have hat := afterLeave_keptAt h hsize order wasOwner mid
  rw [mem_groupMembers, mem_groupMembers]
  constructor
  · rintro ⟨p', hp', hgroup⟩
    obtain ⟨p, hp, hsame⟩ := hat.stayed p' hp'
    exact ⟨p, hp, (hkept hsame).symm.trans hgroup⟩
  · rintro ⟨p, hp, hgroup⟩
    obtain ⟨p', hp', hsame⟩ := hat.stays p hp
    exact ⟨p', hp', (hkept hsame).trans hgroup⟩

theorem groupMembers_congr (h : room'.members = room.members) (groupId : ℕ) :
    room'.groupMembers groupId = room.groupMembers groupId := by
  unfold Room.groupMembers
  rw [h]

/-! ## Joins -/

/-- Whoever is in a group has created the room, and sits in the first slot. -/
structure GroupInv (room : Room) : Prop extends MembersOk room where
  slot : ∀ mid m, room.members.get? mid = some m → m.groupId = 0 ∨ slotOf mid = 1
  counts : ∀ group ∈ room.groups, group.numMembers ≤ 1

/-- An id that is taken is one of slot 65, and then all other slots are taken too. -/
theorem taken_of_allocMemberId (h : MembersOk room)
    (hm : room.members.get? room.allocMemberId = some m) {slot : ℕ} (h1 : 1 ≤ slot) (h64 : slot ≤ 64) :
    room.taken slot = true := by
  by_contra hfree
  have hnone := (allocMemberId_fresh_iff h).mpr
    (Or.inl ⟨slot, h1, h64, Bool.eq_false_iff.mpr hfree⟩)
  rw [hm] at hnone
  cases hnone

/-- Whoever joins is in no group. -/
theorem groupMembers_join_zero (room : Room) {joiner : RoomMember} (hjoiner : joiner.groupId = 0) :
    (room.join joiner).groupMembers 0 = insert room.allocMemberId (room.groupMembers 0) := by
  ext mid
  rw [groupMembers_congr (join_seats _ joiner).members, Finset.mem_insert, mem_groupMembers,
    mem_groupMembers, addMember_get?]
  split
  · rename_i heq
    exact iff_of_true ⟨_, rfl, hjoiner⟩ (Or.inl heq)
  · rename_i hne
    exact (or_iff_right hne).symm

/-- A join leaves the groups as they are. -/
theorem GroupInv.groupMembers_join (h : GroupInv room) {joiner : RoomMember}
    (hjoiner : joiner.groupId = 0) (hgroup : groupId ≠ 0) :
    (room.join joiner).groupMembers groupId = room.groupMembers groupId := by
  ext mid
  rw [groupMembers_congr (join_seats _ joiner).members, mem_groupMembers, mem_groupMembers,
    addMember_get?]
  split
  · rename_i heq
    subst heq
    refine iff_of_false ?_ ?_
    · rintro ⟨m, hm, hin⟩
      obtain rfl := Option.some.inj hm
      exact hgroup (hin.symm.trans hjoiner)
    · -- whoever has the new id has no group
      rintro ⟨m, hm, hin⟩
      have hfirst := (h.slot _ m hm).resolve_left fun hzero => hgroup (hin.symm.trans hzero)
      rw [slotOf_allocMemberId] at hfirst
      have hfull := freeSlot_eq fun slot h1 h64 => taken_of_allocMemberId h.toMembersOk hm h1 h64
      omega
  · exact Iff.rfl

/-- **A join leaves the counts right** if no group has the id 0. -/
theorem join_groupsOk_iff (h : GroupInv room) (hok : room.GroupsOk) {joiner : RoomMember}
    (hjoiner : joiner.groupId = 0) :
    (room.join joiner).GroupsOk ↔ ∀ group ∈ room.groups, group.groupId ≠ 0 := by
  have hgroups := (join_terms room joiner).groups
  constructor
  · intro hok' group hgroup hzero
    have hbefore := hok.numMembers group hgroup
    have hafter := hok'.numMembers group (hgroups ▸ hgroup)
    have hone := h.counts group hgroup
    rw [hzero] at hbefore hafter
    rw [groupMembers_join_zero room hjoiner] at hafter
    -- the new id was in group 0 already
    by_cases hmem : room.allocMemberId ∈ room.groupMembers 0
    · obtain ⟨m, hm, -⟩ := mem_groupMembers.mp hmem
      have htaken : room.taken 2 = true :=
        taken_of_allocMemberId h.toMembersOk hm (by decide) (by decide)
      obtain ⟨mid', m', hm', hslot'⟩ := taken_iff.mp htaken
      rw [h.stored mid' m' hm'] at hslot'
      have hmem' : mid' ∈ room.groupMembers 0 :=
        mem_groupMembers.mpr ⟨m', hm', (h.slot mid' m' hm').resolve_right (by omega)⟩
      have hfull := freeSlot_eq fun slot h1 h64 => taken_of_allocMemberId h.toMembersOk hm h1 h64
      -- and so was that of slot 2
      have htwo := Finset.one_lt_card.mpr ⟨_, hmem, _, hmem', by
        rintro heq
        rw [← heq, slotOf_allocMemberId] at hslot'
        omega⟩
      omega
    · rw [Finset.card_insert_of_notMem hmem] at hafter
      omega
  · intro hnone
    exact (Room.GroupsOk.congr hgroups fun group hgroup =>
      h.groupMembers_join hjoiner (hnone group hgroup)).mpr hok

/-! ## New rooms -/

variable {info : ClientInfo} {env : MatchingEnv} {own : MatchingSessionState} {rid : ℕ}
  {req : CreateRoomRequest}

/-- Groups are numbered from 1 in eight bits. -/
theorem createGroup_groupId (req : CreateRoomRequest) (g : ℕ) :
    (createGroup req g).groupId = (g + 1) % 2 ^ 8 := by
  unfold createGroup
  split <;> rfl

theorem createGroup_numMembers (req : CreateRoomRequest) (g : ℕ) :
    (createGroup req g).numMembers = 0 := by
  unfold createGroup
  split <;> rfl

theorem createGroups_getElem? {g : ℕ} {group : RoomGroup} (h : (createGroups req)[g]? = some group) :
    g < (createGroups req).length ∧ group = createGroup req g := by
  obtain ⟨hlt, heq⟩ := List.getElem?_eq_some_iff.mp h
  refine ⟨hlt, heq.symm.trans ?_⟩
  simp [createGroups]

/-- Ids are numbers from 1 on, cast to 8 bits: they are different up to 256 groups. -/
theorem createGroups_ids_iff :
    ((createGroups req).map (·.groupId)).Nodup ↔ (createGroups req).length ≤ 256 := by
  have hids : (createGroups req).map (·.groupId) =
      (List.range (createGroups req).length).map fun g => (g + 1) % 2 ^ 8 := by
    simp only [createGroups, List.map_map, List.length_map, List.length_range]
    exact List.map_congr_left fun g _ => createGroup_groupId req g
  rw [hids]
  constructor
  · intro hnodup
    by_contra hmany
    -- the groups number 0 and 256 have the same id
    have hinj := List.inj_on_of_nodup_map hnodup (x := 0) (y := 256) (List.mem_range.mpr (by omega))
      (List.mem_range.mpr (by omega)) (by decide)
    cases hinj
  · intro hfew
    refine List.Nodup.map_on (fun g hg g' hg' heq => ?_) List.nodup_range
    rw [List.mem_range] at hg hg'
    omega

/-- The owner is in one of the groups, if there are any. -/
theorem ownerGroup_lt {groups : List RoomGroup} (h : groups ≠ []) :
    ownerGroup req groups < groups.length := by
  have hpos := List.length_pos_iff.mpr h
  unfold ownerGroup
  split
  · exact hpos
  · cases hfind : groups.findIdx? fun g => g.label = some req.joinGroupLabel with
    | none => exact hpos
    | some i => exact (List.findIdx?_eq_some_iff_getElem.mp hfind).1

/-- The creator is in the group that `ownerGroup` chooses. -/
theorem createdRoom_ownerGroup : (createdRoom info env own rid req).2.groupId =
    (((createGroups req)[ownerGroup req (createGroups req)]?).map (·.groupId)).getD 0 := by
  obtain ⟨_, _, _, _, hempty⟩ : SameButAttrs _ (createEmptyRoom own rid req) :=
    SameButAttrs.foldl applySearchIntAttr_attrs _ req.externalSearchIntAttrs
  have hgroups : (createEmptyRoom own rid req).groups = createGroups req := by rw [hempty]
  rw [← hgroups]
  rfl

/-- A group of a new room counts its owner. -/
theorem createdRoom_group {group : RoomGroup} (h : group ∈ (createdRoom info env own rid req).1.groups) :
    ∃ g < (createGroups req).length, group.groupId = (g + 1) % 2 ^ 8 ∧
      group.numMembers = if g = ownerGroup req (createGroups req) then 1 else 0 := by
  rw [createdRoom_takesOver.groups] at h
  obtain ⟨g, hg⟩ := List.mem_iff_getElem?.mp h
  rw [List.getElem?_modify] at hg
  obtain ⟨old, hold, rfl⟩ := Option.map_eq_some_iff.mp hg
  obtain ⟨hlt, rfl⟩ := createGroups_getElem? hold
  refine ⟨g, hlt, ?_⟩
  have hid := createGroup_groupId req g
  have hnum := createGroup_numMembers req g
  split
  · rename_i heq
    exact ⟨hid, by rw [if_pos heq.symm, hnum]⟩
  · rename_i hne
    exact ⟨hid, by rw [if_neg fun heq => hne heq.symm]; exact hnum⟩

theorem groupMembers_createdRoom (groupId : ℕ) :
    (createdRoom info env own rid req).1.groupMembers groupId =
      if (createdRoom info env own rid req).2.groupId = groupId then
        {(createdRoom info env own rid req).2.memberId} else ∅ := by
  have hok : JustCreated info req (createdRoom info env own rid req).1
    (createdRoom info env own rid req).2 := createdRoom_ok
  ext mid
  rw [mem_groupMembers]
  constructor
  · rintro ⟨m, hm, hin⟩
    obtain ⟨rfl, rfl⟩ := hok.only hm
    rw [if_pos hin, Finset.mem_singleton]
  · split
    · rename_i hin
      intro hmid
      rw [Finset.mem_singleton] at hmid
      exact ⟨_, by rw [hok.get?, if_pos hmid], hin⟩
    · exact fun h => absurd h (Finset.notMem_empty mid)

/-- **The groups of a new room are right** if there are 256 at most. -/
theorem createdRoom_groupsOk_iff :
    (createdRoom info env own rid req).1.GroupsOk ↔ (createGroups req).length ≤ 256 := by
  have hids : (createdRoom info env own rid req).1.groups.map (·.groupId) =
      (createGroups req).map (·.groupId) := by
    rw [createdRoom_takesOver.groups]
    refine List.ext_getElem? fun g => ?_
    rw [List.getElem?_map, List.getElem?_map, List.getElem?_modify]
    cases (createGroups req)[g]? with
    | none => rfl
    | some group =>
      simp only [Option.map_some]
      split <;> rfl
  rw [← createGroups_ids_iff, ← hids]
  refine ⟨fun hok => hok.ids, fun hnodup => ⟨fun group hgroup => ?_, hnodup⟩⟩
  have hfew := createGroups_ids_iff.mp (hids ▸ hnodup)
  obtain ⟨g, hlt, hid, hnum⟩ := createdRoom_group hgroup
  have howner : ownerGroup req (createGroups req) < (createGroups req).length :=
    ownerGroup_lt (List.length_pos_iff.mp (by omega))
  have hownerId : (createdRoom info env own rid req).2.groupId =
      (ownerGroup req (createGroups req) + 1) % 2 ^ 8 := by
    rw [createdRoom_ownerGroup, List.getElem?_eq_getElem howner, Option.map_some, Option.getD_some,
      (createGroups_getElem? (List.getElem?_eq_getElem howner)).2, createGroup_groupId]
  rw [groupMembers_createdRoom, hownerId, hid, hnum]
  by_cases heq : g = ownerGroup req (createGroups req)
  · rw [if_pos heq, if_pos (by rw [heq]), Finset.card_singleton]
  · rw [if_neg heq, if_neg (by omega), Finset.card_empty]

/-! ## What is done to a room -/

/-- Whoever stays keeps his group and his slot. -/
theorem GroupInv.of_groupMembers (h : GroupInv room) (hok : MembersOk room')
    (hgroups : room'.groups = room.groups)
    (hstay : ∀ groupId, room'.groupMembers groupId ⊆ room.groupMembers groupId) : GroupInv room' := by
  refine ⟨hok, fun mid m' hm' => ?_, hgroups ▸ h.counts⟩
  obtain ⟨m, hm, hgroup⟩ := mem_groupMembers.mp (hstay _ (mem_groupMembers.mpr ⟨m', hm', rfl⟩))
  rw [← hgroup]
  exact h.slot mid m hm

theorem groupMembers_leave (h : MembersOk room) {me : RoomMember}
    (hleft : (room.dropMember me.memberId).isEmpty = false) (order : Order ℕ) (wasOwner : Bool)
    (groupId : ℕ) : ((room.dropMember me.memberId).afterLeave order wasOwner).groupMembers groupId =
      (room.groupMembers groupId).erase me.memberId := by
  rw [groupMembers_afterLeave (h.remain (dropMember_remain room me.memberId))
    (dropMember_size_pos hleft), groupMembers_dropMember]

/-- A kick takes the member out of his group. -/
theorem groupMembers_kick (room : Room) (target : RoomMember) (mid flag groupId : ℕ) :
    (room.kick target mid flag).groupMembers groupId = (room.groupMembers groupId).erase mid := by
  rw [groupMembers_congr (kick_seats room target mid flag).members, groupMembers_dropMember]

theorem groupInv_join (h : GroupInv room) {joiner : RoomMember} (hjoiner : joiner.groupId = 0)
    (hnew : ∀ mid m, room.members.get? mid = some m → m.npid ≠ joiner.npid) :
    GroupInv (room.join joiner) := by
  have hseats := join_seats room joiner
  refine ⟨hseats.membersOk (h.toMembersOk.add hnew), fun mid m hm => ?_,
    (join_terms room joiner).groups ▸ h.counts⟩
  rw [hseats.members] at hm
  rcases of_addMember hm with ⟨-, rfl⟩ | ⟨-, hold⟩
  · exact Or.inl hjoiner
  · exact h.slot mid m hold

/-- The invariant holds of a created room. -/
theorem groupInv_created : GroupInv (createdRoom info env own rid req).1 := by
  refine ⟨createdRoom_ok.membersOk, fun mid m hm => ?_, fun group hgroup => ?_⟩
  · obtain ⟨rfl, rfl⟩ := createdRoom_ok.only hm
    exact Or.inr createdRoom_ok.slot
  · obtain ⟨g, -, -, hnum⟩ := createdRoom_group hgroup
    rw [hnum]
    split <;> omega

/-- Every operation keeps the invariant. -/
theorem Room.Step.groupInv {op : RoomOp} (h : GroupInv room) (hstep : room.Step op room') :
    GroupInv room' := by
  have hgroups := hstep.terms.groups
  cases hstep with
  | idle => exact h
  | @join info env req hadmits =>
    simp only [Room.admits, Bool.and_eq_true, Option.isNone_iff_eq_none] at hadmits
    exact groupInv_join h rfl (findByNpid_eq_none.mp hadmits.1.1.2)
  | @leave npid order me hme hleft =>
    refine h.of_groupMembers (h.toMembersOk.leave hleft _ _) hgroups fun groupId => ?_
    rw [groupMembers_leave h.toMembersOk hleft]
    exact Finset.erase_subset _ _
  | @kick info env req target htarget =>
    refine h.of_groupMembers ((kick_seats _ _ _ _).membersOk
      (h.toMembersOk.remain (dropMember_remain _ _))) hgroups fun groupId => ?_
    rw [groupMembers_kick]
    exact Finset.erase_subset _ _
  | setInternal info env req setterId =>
    have hseats := setDataInternal_seats room req env.now setterId
    refine h.of_groupMembers (hseats.membersOk h.toMembersOk) hgroups fun groupId => ?_
    rw [groupMembers_congr hseats.members]
  | setExternal req =>
    have hseats := setDataExternal_seats room req
    refine h.of_groupMembers (hseats.membersOk h.toMembersOk) hgroups fun groupId => ?_
    rw [groupMembers_congr hseats.members]

/-- What is done to a room leaves its groups right: it has no more than 256, nobody joins while one of
them has the id 0, and nobody of a group leaves while others stay. -/
def RoomOp.GroupSafe : RoomOp → Option Room → Prop
  | .create _ _ _ req, _ => (createGroups req).length ≤ 256
  | _, none => True
  | .join info env req, some room =>
    room.admits info env req = true → ∀ group ∈ room.groups, group.groupId ≠ 0
  | .leave npid order, some room => ∀ me, room.findByNpid order npid = some me →
    (room.dropMember me.memberId).isEmpty = false →
    ∀ group ∈ room.groups, group.groupId ≠ me.groupId
  | .kick info env req, some room => ∀ target, room.kickTarget info env req = some target →
    ∀ group ∈ room.groups, group.groupId ≠ target.groupId
  | _, some _ => True

/-- **When the groups stay right.** -/
theorem run_groupsOk_iff (op : RoomOp) (rid : ℕ) {before : Option Room}
    (h : ∀ room, before = some room → GroupInv room ∧ room.GroupsOk) :
    (∀ room', op.run rid before = some room' → room'.GroupsOk) ↔ op.GroupSafe before := by
  cases op with
  | create info env own req =>
    simp only [RoomOp.run, Option.some.injEq, forall_eq', createdRoom_groupsOk_iff, RoomOp.GroupSafe]
  | join info env req =>
    cases before with
    | none => exact iff_of_true (fun room' h => by cases h) trivial
    | some room =>
      obtain ⟨hinv, hok⟩ := h room rfl
      simp only [RoomOp.run, Option.some.injEq, forall_eq', RoomOp.GroupSafe]
      by_cases hadmits : room.admits info env req = true
      · rw [if_pos hadmits, join_groupsOk_iff hinv hok rfl, forall_prop_of_true hadmits]
      · rw [if_neg hadmits]
        exact iff_of_true hok fun hin => absurd hin hadmits
  | leave npid order =>
    cases before with
    | none => exact iff_of_true (fun room' h => by cases h) trivial
    | some room =>
      obtain ⟨hinv, hok⟩ := h room rfl
      simp only [RoomOp.run, RoomOp.GroupSafe]
      cases hme : room.findByNpid order npid with
      | none =>
        refine iff_of_true (fun room' hroom' => ?_) fun me h => by cases h
        obtain rfl := Option.some.inj hroom'
        exact hok
      | some me =>
        simp only [Option.some.injEq, forall_eq', Room.without]
        have hget := (hinv.found hme).1
        cases hleft : (room.dropMember me.memberId).isEmpty with
        | true => exact iff_of_true (by simp) (by simp)
        | false =>
          simp only [Bool.false_eq_true, if_false, Option.some.injEq, forall_eq', true_imp_iff]
          exact hok.erase_iff (afterLeave_terms _ _ _ _).groups hget
            (groupMembers_leave hinv.toMembersOk hleft _ _)
  | kick info env req =>
    cases before with
    | none => exact iff_of_true (fun room' h => by cases h) trivial
    | some room =>
      obtain ⟨hinv, hok⟩ := h room rfl
      simp only [RoomOp.run, RoomOp.GroupSafe]
      cases htarget : room.kickTarget info env req with
      | none =>
        refine iff_of_true (fun room' hroom' => ?_) fun me h => by cases h
        obtain rfl := Option.some.inj hroom'
        exact hok
      | some target =>
        simp only [Option.some.injEq, forall_eq']
        exact hok.erase_iff (kick_terms _ _ _ _).groups (kickTarget_get? htarget)
          (groupMembers_kick _ _ _ _)
  | setInternal info env req =>
    cases before with
    | none => exact iff_of_true (fun room' h => by cases h) trivial
    | some room =>
      obtain ⟨-, hok⟩ := h room rfl
      refine iff_of_true (fun room' hroom' => ?_) trivial
      obtain rfl := Option.some.inj hroom'
      exact (Room.GroupsOk.congr (setDataInternal_terms _ _ _ _).groups fun group _ =>
        groupMembers_congr (setDataInternal_seats _ _ _ _).members _).mpr hok
  | setExternal req =>
    cases before with
    | none => exact iff_of_true (fun room' h => by cases h) trivial
    | some room =>
      obtain ⟨-, hok⟩ := h room rfl
      refine iff_of_true (fun room' hroom' => ?_) trivial
      obtain rfl := Option.some.inj hroom'
      exact (Room.GroupsOk.congr (setDataExternal_terms _ _).groups fun group _ =>
        groupMembers_congr (setDataExternal_seats _ _).members _).mpr hok

/-! ## Runs -/

/-- What the event does to a room leaves its groups right. -/
def Server.GroupSafe (s : Server) (e : Event) : Prop :=
  ∀ key op, s.roomOp e = some (key, op) → op.GroupSafe (s.shared.matching.rooms.get? key)

/-- An event keeps the counts of groups right if and only if it is safe for them. -/
theorem step_groupsOk_iff {sv : Services} {s : Server} {e : Event}
    (hinv : AllRooms GroupInv s.shared.matching) (hall : AllRooms Room.GroupsOk s.shared.matching) :
    AllRooms Room.GroupsOk (s.step sv e).shared.matching ↔ s.GroupSafe e :=
  allRooms_step_iff hall fun key op => run_groupsOk_iff op key.2 fun room hroom =>
    ⟨hinv key room hroom, hall key room hroom⟩

/-- **The groups are right along a run**, each counting the members that have its id, and no two having
the same id, exactly when no room is created with more than 256 groups, nobody joins a room that has a
group with id 0, and no member of a group leaves or is kicked out of a room in which others stay. -/
theorem groups_ok_iff (sv : Services) (db : Database) (titleGroups : Table String String)
    (events : List Event) :
    (∀ n, AllRooms Room.GroupsOk (configuredServerAfter sv db titleGroups events n).shared.matching) ↔
      ∀ k (hk : k < events.length),
        (configuredServerAfter sv db titleGroups events k).GroupSafe events[k] := by
  refine runAt_iff_guard (I := fun s : Server => AllRooms GroupInv s.shared.matching)
    (P := fun s => AllRooms Room.GroupsOk s.shared.matching) (G := Server.GroupSafe) ?_ ?_ ?_ ?_ ?_
  · intro key room hroom
    cases hroom
  · intro s e hinv
    exact Room.Step.server hinv (fun _ _ _ _ _ _ => groupInv_created)
      fun _ hroom hstep => hstep.groupInv hroom
  · intro key room hroom
    cases hroom
  · exact fun s e hinv hall hsafe => (step_groupsOk_iff hinv hall).mpr hsafe
  · exact fun s e hinv hall hunsafe h => hunsafe ((step_groupsOk_iff hinv hall).mp h)

/-- Alice leaves her room to Bob; its group still counts her. -/
theorem left_group_counts : ¬ ∀ sv db titleGroups events n,
    AllRooms Room.GroupsOk (configuredServerAfter sv db titleGroups events n).shared.matching := by
  intro h
  let events : List Event :=
    [.connect, .request 0 (.login (some ⟨"alice", "alice", "", "", "", false⟩)) .plain,
      .request 0 (.createRoom (some { maxSlots := 4, groupConfigCount := 1 })) .plain, .connect,
      .request 1 (.login (some ⟨"bob", "bob", "", "", "", false⟩)) .plain,
      .request 1 (.joinRoom (some { roomId := 1 })) .plain, .request 0 (.leaveRoom (some 1)) .plain]
  have hdata : ((configuredServerAfter .plain aliceAndBob ∅ events 7).shared.matching.rooms.get?
      ("", 1)).map (fun room => room.groups.map fun group =>
        (group.numMembers, (room.groupMembers group.groupId).card)) = some [(1, 0)] := by decide +kernel
  obtain ⟨room, hroom, hdata⟩ := Option.map_eq_some_iff.mp hdata
  obtain ⟨group, hgroups, hgroup⟩ := List.map_eq_singleton_iff.mp hdata
  obtain ⟨hcounted, hpresent⟩ := Prod.mk.inj hgroup
  have hcount := (h .plain aliceAndBob ∅ events 7 _ room hroom).numMembers group
    (hgroups ▸ List.mem_singleton_self group)
  rw [hcounted, hpresent] at hcount
  cases hcount

end ShadNet
